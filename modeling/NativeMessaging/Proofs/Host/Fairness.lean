import NativeMessaging.Proofs.Host.Moment

/-!
# Host — neither queue starves the other

The two queues are served in turn, and each turn puts what it leaves behind what waits.  So an item
that waits behind `k` others has its turn after theirs, and the other queue gets at most `k + 1`
turns before that, whatever the turns do.  A loop that waits has empty queues, so that no item waits
longer than the path that begins there.

* `Path.stands`: an item that waits, over a path, with the exact count of the other queue's turns.
* `served_within`: every item of every run, from the moment at which it was put into its queue.
-/

namespace NativeMessaging.Host

open Moment (Path)

variable {κ ω : Type} {handlers : Handlers κ ω} {side : Side} {ahead : List (Item κ)}
  {item : Item κ} {point : Moment κ ω}

/-- What becomes of an item that waited behind some others, in the turns of a run up to a point of
it.  Either it still waits, behind what is left of the others; or it has had its turn, right after
theirs.  Until then, the other queue got at most one turn more than there were others; those of
`since` are counted too. -/
def Served (side : Side) (ahead : List (Item κ)) (item : Item κ) (since events : List (Event κ))
    (point : Moment κ ω) : Prop :=
  (∃ rest behind, taken side events ++ rest = ahead ∧
      point.loop.queue side = rest ++ item :: behind ∧
      (taken side.other (since ++ events)).length ≤ ahead.length + 1) ∨
    ∃ now event later, events = now ++ event :: later ∧ event.item = item ∧
      taken side now = ahead ∧ (taken side.other (since ++ now)).length ≤ ahead.length + 1

/-! ### Over a path -/

/-- One where the queue is served next. -/
def Moment.due (side : Side) (moment : Moment κ ω) : Nat :=
  if moment.next = side then 1 else 0

/-- What becomes of the item, with the exact count: up to its turn the other queue is served as
often as its own, but for which of them comes first (`slack`) and which last. -/
def Stands (side : Side) (ahead : List (Item κ)) (item : Item κ) (slack : Nat)
    (events : List (Event κ)) (point : Moment κ ω) : Prop :=
  (∃ rest behind, taken side events ++ rest = ahead ∧
      point.loop.queue side = rest ++ item :: behind ∧
      (taken side.other events).length + slack ≤ (taken side events).length + point.due side) ∨
    ∃ now event later, events = now ++ event :: later ∧ event.item = item ∧
      taken side now = ahead ∧ (taken side.other now).length + slack ≤ ahead.length + 1

theorem Stands.served {slack : Nat} {since events : List (Event κ)}
    (h : Stands side ahead item slack events point)
    (hsince : (taken side.other since).length ≤ slack) :
    Served side ahead item since events point := by
  rcases h with ⟨rest, behind, hahead, hqueue, hcount⟩ |
    ⟨now, event, later, hsplit, hitem, hahead, hcount⟩
  · have hlength : (taken side events).length ≤ ahead.length := by
      rw [← hahead, List.length_append]
      omega
    have hdue : point.due side ≤ 1 := by
      rw [Moment.due]
      split <;> omega
    refine .inl ⟨rest, behind, hahead, hqueue, ?_⟩
    rw [taken_append, List.length_append]
    omega
  · refine .inr ⟨now, event, later, hsplit, hitem, hahead, ?_⟩
    rw [taken_append, List.length_append]
    omega

/-- Turns before: those that were taken in them were ahead too. -/
theorem Stands.prepend {slack slack' : Nat} {now later : List (Event κ)}
    (h : Stands side ahead item slack later point)
    (hcount : (taken side.other now).length + slack' ≤ (taken side now).length + slack) :
    Stands side (taken side now ++ ahead) item slack' (now ++ later) point := by
  rcases h with ⟨rest, behind, rfl, hqueue, hwaits⟩ |
    ⟨before, event, behind, rfl, hitem, rfl, hturn⟩
  · refine .inl ⟨rest, behind, by rw [taken_append, List.append_assoc], hqueue, ?_⟩
    simp only [taken_append, List.length_append]
    omega
  · refine .inr ⟨now ++ before, event, behind, (List.append_assoc ..).symm, hitem,
      taken_append .., ?_⟩
    simp only [taken_append, List.length_append]
    omega

/-- Where the item waits, one service takes an item of its queue, or is that of the other. -/
theorem Moment.serve_count (handlers : Handlers κ ω) {moment : Moment κ ω}
    (hqueue : moment.loop.queue side ≠ []) :
    (taken side.other (moment.serve handlers).1).length + moment.due side ≤
      (taken side (moment.serve handlers).1).length + (moment.serve handlers).2.due side := by
  have hafter : (moment.serve handlers).2.next = moment.next.other := rfl
  rw [due, due, hafter]
  rcases moment.serve_events handlers with ⟨hempty, hnone⟩ | ⟨event, hevent, hside⟩
  · have hne : moment.next ≠ side := fun h => hqueue (h ▸ hempty)
    obtain rfl : side = moment.next.other := Side.eq_other_of_ne hne
    rw [hnone, if_neg hne, if_pos rfl]
    exact Nat.zero_le _
  · rw [hevent, taken_singleton, taken_singleton, hside]
    generalize moment.next = next
    cases side <;> cases next <;> simp [Side.other]

/-- Behind a turn of the other queue, this one is served next. -/
theorem Moment.length_taken_other_le {moment : Moment κ ω} {event : Event κ}
    (h : (moment.serve handlers).1 = [event]) :
    (taken side.other [event]).length ≤ (moment.serve handlers).2.due side := by
  have hafter : (moment.serve handlers).2.next = moment.next.other := rfl
  rw [due, hafter]
  rw [taken_singleton, Moment.side_of_serve h]
  generalize moment.next = next
  cases side <;> cases next <;> simp [Side.other]

/-- A service takes nothing from a queue, or the item of its one turn. -/
theorem Moment.taken_serve (handlers : Handlers κ ω) (moment : Moment κ ω) (side : Side) :
    taken side (moment.serve handlers).1 = [] ∨
      ∃ event, (moment.serve handlers).1 = [event] ∧
        taken side (moment.serve handlers).1 = [event.item] := by
  rcases moment.serve_events handlers with ⟨-, hnone⟩ | ⟨event, hevent, -⟩
  · exact .inl (by rw [hnone, taken_nil])
  · rw [hevent, taken_singleton]
    by_cases hside : event.item.side = side
    · exact .inr ⟨event, rfl, if_pos hside⟩
    · exact .inl (if_neg hside)

/-- **An item that waits**, over a path. -/
theorem Path.stands {moment : Moment κ ω} {events : List (Event κ)}
    (h : Path handlers moment events point) {behind : List (Item κ)}
    (hqueue : moment.loop.queue side = ahead ++ item :: behind) :
    Stands side ahead item (moment.due side) events point := by
  induction h generalizing ahead behind with
  | refl moment => exact .inl ⟨ahead, behind, rfl, hqueue, Nat.le_refl _⟩
  | @more moment point later hgoes t ih =>
      have hwaits : moment.loop.queue side ≠ [] := by simp [hqueue]
      have hcount := Moment.serve_count handlers hwaits
      obtain ⟨found, hfound, hleft⟩ := moment.exists_found handlers side
      rw [hqueue] at hfound
      rcases moment.taken_serve handlers side with hnone | ⟨event, hevent, hone⟩
      · -- as many are ahead as before
        rw [hnone, List.nil_append] at hfound
        rw [← hfound, List.append_assoc, List.cons_append] at hleft
        have hstands := (ih hleft).prepend hcount
        rwa [hnone, List.nil_append] at hstands
      · rw [hone] at hfound
        cases ahead with
        | nil =>
            obtain ⟨rfl, -⟩ := List.cons.inj hfound
            refine .inr ⟨[], event, later, by rw [hevent]; rfl, rfl, rfl, ?_⟩
            rw [Moment.due]
            split <;> simp
        | cons first ahead =>
            -- the first of those ahead has its turn
            obtain ⟨rfl, htail⟩ := List.cons.inj hfound
            have hrest : ahead ++ item :: behind = found := htail
            rw [← hrest, List.append_assoc] at hleft
            have hstands := (ih hleft).prepend hcount
            rwa [hone] at hstands

/-- **Neither queue starves the other.**  From every moment of every run up to every later point,
whatever the turns do: an item that was in its queue at the beginning, or was put there in a turn,
behind `k` others, has its turn right after theirs, and as long as it waits the other queue gets at
most `k + 1` turns, the one in which the item was put there included.  The others are those that
were in the queue at the beginning, or those that the turn found in it, and what the turn put there
before the item. -/
theorem served_within {moment : Moment κ ω} {events : List (Event κ)} {point : Moment κ ω}
    (h : Path handlers moment events point) (side : Side) :
    (∀ ahead item behind, moment.loop.queue side = ahead ++ item :: behind →
        Served side ahead item [] events point) ∧
      ∀ before event later, events = before ++ event :: later →
        ∃ found, taken side (before ++ [event]) ++ found =
            moment.loop.queue side ++ before.flatMap (·.left side) ∧
          ∀ ahead item behind, event.left side = ahead ++ item :: behind →
            Served side (found ++ ahead) item [event] later point := by
  refine ⟨fun ahead item behind hqueue => (Path.stands h hqueue).served (Nat.zero_le _), ?_⟩
  rintro before event later rfl
  obtain ⟨turn, hbefore, -, hevent, hlater⟩ := h.split
  obtain ⟨found, hfound, hleft⟩ := turn.exists_found handlers side
  rw [hevent] at hfound hleft
  rw [List.flatMap_singleton] at hleft
  refine ⟨found, ?_, fun ahead item behind hput => ?_⟩
  · rw [taken_append, List.append_assoc, ← hfound, hbefore.taken_append_queue]
  · have hqueue : (turn.serve handlers).2.loop.queue side =
        (found ++ ahead) ++ item :: behind := by
      rw [hleft, hput, List.append_assoc]
    exact (Path.stands hlater hqueue).served (Moment.length_taken_other_le hevent)

/-- A call that schedules itself for ever; a first message that posts a last one and panics, and a
last one that asks to stop. -/
def relentless : Handlers Unit Unit where
  call c := Turn.schedule c
  dispatch m :=
    if m = .create "first" then do Turn.post (.create "last"); Turn.panic
    else if m = .create "last" then Turn.requestExit
    else pure ()

/-- Two messages and that call: the message that is posted in the first round is posted behind one
message, and two more calls get their turns before it. -/
theorem served_within_relentless :
    let loop : Loop Unit Unit := ⟨[.create "first", .create "second"], [()], false, ()⟩
    let final : Loop Unit Unit := ⟨[], [()], true, ()⟩
    let call : Event Unit := ⟨.call (), [], [()], false⟩
    let first : Event Unit := ⟨.message (.create "first"), [.create "last"], [], false⟩
    let later : List (Event Unit) :=
      [call, ⟨.message (.create "second"), [], [], false⟩, call,
        ⟨.message (.create "last"), [], [], true⟩]
    loop.run relentless 3 = some ([call] ++ first :: later, final) ∧
      Path relentless (.start loop) ([call] ++ first :: later) (.start final) ∧
      ∀ side, (∀ ahead item behind, loop.queue side = ahead ++ item :: behind →
          Served side ahead item [] ([call] ++ first :: later) (.start final)) ∧
        ∃ found, taken side ([call] ++ [first]) ++ found =
            loop.queue side ++ [call].flatMap (·.left side) ∧
          ∀ ahead item behind, first.left side = ahead ++ item :: behind →
            Served side (found ++ ahead) item [first] later (.start final) := by
  intro loop final call first later
  have hrun : loop.run relentless 3 = some ([call] ++ first :: later, final) := rfl
  have hpath := (Loop.exists_run_iff.mp ⟨3, hrun⟩).1
  refine ⟨hrun, hpath, fun side => ?_⟩
  obtain ⟨hstart, hput⟩ := served_within hpath side
  exact ⟨hstart, hput [call] first later rfl⟩

end NativeMessaging.Host
