import NativeMessaging.Proofs.Host.Watch

/-!
# Host — the lives of plugins

A *ledger* says how many plugins have been loaded, which of them is alive, and what all of them
received.  `Step` is one receipt more: none is started while another is alive, and only the one that
is alive is called or shut down.

* `Ledger.Path.life`: along every path each instance has one life (`Life`), and it goes on exactly
  for the one that is alive.
* `Ledger.Path.of_prefix`: every beginning of the log is the log of a moment on the path.
* `Ledger.Path.not_alive_start`: where an instance is started, none is alive.
* `Ledger.Path.count_shutdown`: an instance that was started when none is alive any more has been
  shut down, once for all.
-/

namespace NativeMessaging.Host

/-- A call, and neither a start nor a shutdown. -/
def Method.isCall : Method → Bool
  | .onCall _ _ _ _ => true
  | _               => false

/-- What one instance received, in order. -/
def received (log : List Receipt) (n : Nat) : List Method :=
  (log.filter (·.number = n)).map Receipt.method

/-- The instance was started, with success, and has not been shut down. -/
def Alive (log : List Receipt) (n : Nat) : Prop :=
  ⟨n, .start true⟩ ∈ log ∧ ⟨n, .shutdown⟩ ∉ log

/-- What an instance can receive in its life, and whether it is alive behind that: nothing; a start
that fails, and nothing more; or a start, calls, and in the end a shutdown. -/
inductive Life : Bool → List Method → Prop where
  | unborn : Life false []
  | notStarted : Life false [.start false]
  | running {calls : List Method} (h : ∀ m ∈ calls, m.isCall) : Life true (.start true :: calls)
  | ended {calls : List Method} (h : ∀ m ∈ calls, m.isCall) :
      Life false (.start true :: calls ++ [.shutdown])

/-- Which of the instances that were loaded is alive, and what all received. -/
structure Ledger where
  loaded : Nat
  alive : Option Nat
  log : List Receipt

variable {log before after : List Receipt} {m n : Nat}

/-! ### What one instance received -/

theorem mem_received {method : Method} :
    method ∈ received log n ↔ (⟨n, method⟩ : Receipt) ∈ log := by
  rw [received, List.mem_map]
  constructor
  · rintro ⟨⟨k, method'⟩, hmem, rfl⟩
    obtain ⟨hlog, hk⟩ := List.mem_filter.mp hmem
    obtain rfl : k = n := of_decide_eq_true hk
    exact hlog
  · intro hlog
    exact ⟨_, List.mem_filter.mpr ⟨hlog, decide_eq_true rfl⟩, rfl⟩

theorem received_concat (log : List Receipt) (n : Nat) (method : Method) :
    received (log ++ [⟨n, method⟩]) n = received log n ++ [method] := by
  simp [received]

theorem received_concat_of_ne (log : List Receipt) (method : Method) (h : m ≠ n) :
    received (log ++ [⟨m, method⟩]) n = received log n := by
  simp [received, h]

/-! ### Lives -/

namespace Life

variable {alive : Bool} {methods : List Method}

theorem not_mem_of_isCall {calls : List Method} (h : ∀ m ∈ calls, m.isCall) :
    Method.shutdown ∉ calls := fun hmem => nomatch h _ hmem

/-- An instance is alive where it was started, and not shut down. -/
theorem alive_iff (h : Life alive methods) :
    alive = true ↔ .start true ∈ methods ∧ .shutdown ∉ methods := by
  cases h with
  | unborn => simp
  | notStarted => simp
  | running h => simp [not_mem_of_isCall h]
  | ended h => simp

/-- An instance is shut down once at most. -/
theorem count_shutdown (h : Life alive methods) (hmem : .shutdown ∈ methods) :
    methods.count .shutdown = 1 := by
  cases h with
  | unborn => simp at hmem
  | notStarted => simp at hmem
  | running h => simp [not_mem_of_isCall h] at hmem
  | ended h => simp [List.count_eq_zero_of_not_mem (not_mem_of_isCall h)]

end Life

/-! ### Ledgers -/

namespace Ledger

/-- Nothing has been loaded. -/
def new : Ledger := ⟨0, none, []⟩

/-- One receipt more. -/
inductive Step : Ledger → Ledger → Prop where
  | started (loaded : Nat) (log : List Receipt) :
      Step ⟨loaded, none, log⟩ ⟨loaded + 1, some loaded, log ++ [⟨loaded, .start true⟩]⟩
  | notStarted (loaded : Nat) (log : List Receipt) :
      Step ⟨loaded, none, log⟩ ⟨loaded + 1, none, log ++ [⟨loaded, .start false⟩]⟩
  | called (loaded n : Nat) (log : List Receipt) {method : Method} (h : method.isCall) :
      Step ⟨loaded, some n, log⟩ ⟨loaded, some n, log ++ [⟨n, method⟩]⟩
  | shutdown (loaded n : Nat) (log : List Receipt) :
      Step ⟨loaded, some n, log⟩ ⟨loaded, none, log ++ [⟨n, .shutdown⟩]⟩

/-- Receipts, one behind the other. -/
inductive Path : Ledger → Ledger → Prop where
  | refl (l : Ledger) : Path l l
  | more {l l₁ l' : Ledger} (h : Path l l₁) (s : Step l₁ l') : Path l l'

variable {l l₁ l' : Ledger}

theorem Step.exists_log (h : Step l l') : ∃ receipt, l'.log = l.log ++ [receipt] := by
  cases h <;> exact ⟨_, rfl⟩

/-- An instance is started only where none is alive. -/
theorem Step.of_start (h : Step l l') {succeeded : Bool}
    (hlog : l'.log = before ++ [⟨n, .start succeeded⟩]) : l.alive = none ∧ l.log = before := by
  cases h with
  | started => exact ⟨rfl, (List.append_inj' hlog rfl).1⟩
  | notStarted => exact ⟨rfl, (List.append_inj' hlog rfl).1⟩
  | called _ _ _ hcall =>
      obtain ⟨-, hlast⟩ := List.append_inj' hlog rfl
      cases hlast
      cases hcall
  | shutdown => cases (List.append_inj' hlog rfl).2

theorem Path.trans (h₁ : Path l l₁) (h₂ : Path l₁ l') : Path l l' := by
  induction h₂ with
  | refl => exact h₁
  | more _ s ih => exact .more ih s

theorem Path.log_prefix (h : Path l l') : l.log <+: l'.log := by
  induction h with
  | refl => exact List.prefix_refl _
  | more _ s ih =>
      obtain ⟨receipt, hlog⟩ := s.exists_log
      rw [hlog]
      exact ih.trans (List.prefix_append ..)

/-- What has not been loaded has received nothing, and every instance has its life, which goes on
for the one that is alive. -/
structure IsSound (l : Ledger) : Prop where
  fresh : ∀ n, l.loaded ≤ n → received l.log n = []
  life : ∀ n, Life (decide (l.alive = some n)) (received l.log n)

theorem isSound_new : new.IsSound := ⟨fun _ _ => rfl, fun _ => .unborn⟩

/-- An instance that is alive has been loaded. -/
theorem IsSound.lt_loaded (h : l.IsSound) (halive : l.alive = some n) : n < l.loaded := by
  by_contra hle
  have hlife := h.life n
  rw [h.fresh n (Nat.le_of_not_lt hle), halive, decide_eq_true rfl] at hlife
  cases hlife

/-- The instance that was alive goes on with what it receives. -/
theorem IsSound.exists_calls (h : l.IsSound) (halive : l.alive = some n) :
    ∃ calls, (∀ m ∈ calls, m.isCall) ∧ received l.log n = .start true :: calls := by
  have hlife := h.life n
  rw [decide_eq_true halive] at hlife
  cases hreceived : received l.log n with
  | nil =>
      rw [hreceived] at hlife
      cases hlife
  | cons start calls =>
      rw [hreceived] at hlife
      cases hlife with
      | running hcalls => exact ⟨calls, hcalls, rfl⟩

/-- It is enough to look at the instance that receives something. -/
theorem IsSound.concat (h : l.IsSound) {loaded : Nat} {alive : Option Nat} {method : Method}
    (hloaded : l.loaded ≤ loaded) (hn : n < loaded)
    (hothers : ∀ m, m ≠ n → (alive = some m ↔ l.alive = some m))
    (hlife : Life (decide (alive = some n)) (received l.log n ++ [method])) :
    IsSound ⟨loaded, alive, l.log ++ [⟨n, method⟩]⟩ where
  fresh m hm := by
    dsimp only at hm ⊢
    rw [received_concat_of_ne _ _ (by omega)]
    exact h.fresh m (Nat.le_trans hloaded hm)
  life m := by
    dsimp only
    by_cases hm : m = n
    · rw [hm, received_concat]
      exact hlife
    · rw [received_concat_of_ne _ _ (Ne.symm hm), decide_eq_decide.mpr (hothers m hm)]
      exact h.life m

/-- **One receipt more.** -/
theorem IsSound.step (h : l.IsSound) (s : Step l l') : l'.IsSound := by
  cases s with
  | started loaded log =>
      refine h.concat (Nat.le_succ _) (Nat.lt_succ_self _) (fun m hm => ?_) ?_
      · simp [Ne.symm hm]
      · rw [h.fresh loaded (Nat.le_refl _), decide_eq_true rfl]
        exact .running (List.forall_mem_nil _)
  | notStarted loaded log =>
      refine h.concat (Nat.le_succ _) (Nat.lt_succ_self _) (fun m _ => Iff.rfl) ?_
      rw [h.fresh loaded (Nat.le_refl _)]
      exact .notStarted
  | called loaded n log hcall =>
      obtain ⟨calls, hcalls, hreceived⟩ := h.exists_calls rfl
      refine h.concat (Nat.le_refl _) (h.lt_loaded rfl) (fun m _ => Iff.rfl) ?_
      rw [hreceived, decide_eq_true rfl]
      exact .running (List.forall_mem_append.mpr ⟨hcalls, List.forall_mem_singleton.mpr hcall⟩)
  | shutdown loaded n log =>
      obtain ⟨calls, hcalls, hreceived⟩ := h.exists_calls rfl
      refine h.concat (Nat.le_refl _) (h.lt_loaded rfl) (fun m hm => ?_) ?_
      · simp [Ne.symm hm]
      · rw [hreceived]
        exact .ended hcalls

namespace Path

variable {log : List Receipt}

theorem isSound (h : Path l l') (hl : l.IsSound) : l'.IsSound := by
  induction h with
  | refl => exact hl
  | more _ s ih => exact ih.step s

/-- **Each instance has one life.** -/
theorem life (h : Path new l) (n : Nat) :
    Life (decide (l.alive = some n)) (received l.log n) := (h.isSound isSound_new).life n

/-- The instance that is alive is the one that the ledger says. -/
theorem alive_iff (h : Path new l) : Alive l.log n ↔ l.alive = some n := by
  rw [Alive, ← mem_received, ← mem_received, ← (h.life n).alive_iff, decide_eq_true_iff]

/-- **Every beginning of the log is the log of a moment on the path.** -/
theorem of_prefix (h : Path new l) (hlog : log <+: l.log) : ∃ l₁, Path new l₁ ∧ l₁.log = log := by
  induction h with
  | refl => exact ⟨new, .refl _, (List.prefix_nil.mp hlog).symm⟩
  | more h s ih =>
      obtain ⟨receipt, hconcat⟩ := s.exists_log
      rw [hconcat, List.prefix_concat_iff] at hlog
      rcases hlog with rfl | hlog
      · exact ⟨_, .more h s, hconcat⟩
      · exact ih hlog

/-- **Where an instance is started, none is alive.** -/
theorem not_alive_start (h : Path new l) {succeeded : Bool}
    (hlog : before ++ [⟨n, .start succeeded⟩] <+: l.log) : ¬ Alive before m := by
  obtain ⟨l₁, hpath, hl₁⟩ := h.of_prefix hlog
  -- the last step to that moment is the start
  cases hpath with
  | refl => exact absurd hl₁ (by simp [new])
  | more hbefore s =>
      obtain ⟨hnone, rfl⟩ := s.of_start hl₁
      rw [hbefore.alive_iff, hnone]
      exact nofun

/-- **An instance that was started has been shut down when none is alive**, and is not shut down
again. -/
theorem count_shutdown (h : Path new l) (hnone : l.alive = none)
    (hstart : ⟨n, .start true⟩ ∈ l.log) (hlater : Path l l') :
    (received l'.log n).count .shutdown = 1 := by
  have hshutdown : ⟨n, .shutdown⟩ ∈ l.log := by
    by_contra hmem
    have halive := h.alive_iff.mp ⟨hstart, hmem⟩
    rw [hnone] at halive
    cases halive
  exact ((h.trans hlater).life n).count_shutdown
    (mem_received.mpr (hlater.log_prefix.mem hshutdown))

end Path

end Ledger

end NativeMessaging.Host
