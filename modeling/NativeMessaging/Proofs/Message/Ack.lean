import NativeMessaging.Message.Decode
import NativeMessaging.Message.Envelope
import NativeMessaging.Proofs.Json.Skip

/-!
# Message — acks read back, and chunks are no acks

The reader of an ack goes through the members of an object and keeps what it has read in a draft.
What a member makes of the draft (`Draft.Takes`) is carried through all of them (`Draft.TakesAll`).

* `decode_print`: the text of an ack decodes to that ack, whatever texts it carries.
* `exists_decode_document`: the document of a chunk decodes to no ack, whatever text it carries: it
  has no status.
-/

namespace NativeMessaging.Ack

open Json (Reader Fault memberText membersText memberText_append stops_flatMap)
open Json.Token (Stops skipSpace_cons stringBody_quote)

/-! ### Members of an object -/

namespace Draft

/-- The reader takes the value of a member into the draft, whatever stops behind it. -/
def Takes (rounds : Nat) (draft : Draft) (m : String × Json) (draft' : Draft) : Prop :=
  ∀ rest, Stops rest →
    draft.readField rounds m.1 (':' :: (Json.text m.2 ++ rest)) = .ok (draft', rest)

/-- The reader takes members into the draft, one after another. -/
inductive TakesAll (rounds : Nat) : Draft → List (String × Json) → Draft → Prop where
  | nil (draft : Draft) : TakesAll rounds draft [] draft
  | cons {draft draft' draft'' : Draft} {m : String × Json} {ms : List (String × Json)}
      (h : draft.Takes rounds m draft') (t : TakesAll rounds draft' ms draft'') :
      TakesAll rounds draft (m :: ms) draft''

end Draft

/-- What is behind the closing brace, and the ack that the draft makes. -/
def finishing (draft : Draft) (rest : List Char) : Except Fault (Ack × List Char) :=
  match draft.finish with
  | .ok ack  => .ok (ack, rest)
  | .error m => Json.Decoder.mismatch m rest

theorem readMembers_member {size rounds : Nat} {more : Bool} {draft draft' : Draft}
    {m : String × Json} {cs rest : List Char} (htakes : draft.Takes size m draft')
    (hrest : Stops rest)
    (hstart : Json.memberStart more cs =
      .ok (.name (m.1.toList.flatMap Json.escape ++ '"' :: ':' :: (Json.text m.2 ++ rest)))) :
    readMembers size (rounds + 1) more draft cs = readMembers size rounds true draft' rest := by
  simp only [readMembers, hstart, stringBody_quote, htakes rest hrest, bind, Except.bind]

theorem readMembers_close (size rounds : Nat) (more : Bool) (draft : Draft) (rest : List Char) :
    readMembers size (rounds + 1) more draft ('}' :: rest) = finishing draft rest := by
  cases more <;> rfl

/-- The members behind the first one. -/
theorem readMembers_more {size : Nat} {draft draft' : Draft} {ms : List (String × Json)}
    (h : Draft.TakesAll size draft ms draft') {rounds : Nat} (hr : ms.length < rounds)
    (rest : List Char) :
    readMembers size rounds true draft
        (ms.flatMap (fun m => ',' :: memberText m) ++ '}' :: rest) = finishing draft' rest := by
  induction h generalizing rounds with
  | nil draft =>
      obtain ⟨rounds, rfl⟩ : ∃ k, rounds = k + 1 := ⟨rounds - 1, by simp at hr; omega⟩
      exact readMembers_close size rounds true draft rest
  | @cons draft _ _ m ms htakes _ ih =>
      obtain ⟨rounds, rfl⟩ : ∃ k, rounds = k + 1 := ⟨rounds - 1, by simp at hr; omega⟩
      rw [List.flatMap_cons, List.cons_append, List.cons_append, List.append_assoc,
        memberText_append,
        readMembers_member htakes (stops_flatMap memberText ms (.inr rfl) rest) rfl,
        ih (by simpa using hr)]

/-- **The members of an object, read into a draft.** -/
theorem readMembers_membersText {size : Nat} {draft draft' : Draft} {ms : List (String × Json)}
    (h : Draft.TakesAll size draft ms draft') {rounds : Nat} (hr : ms.length < rounds)
    (rest : List Char) :
    readMembers size rounds false draft (membersText ms ++ '}' :: rest) =
      finishing draft' rest := by
  obtain ⟨rounds, rfl⟩ : ∃ k, rounds = k + 1 := ⟨rounds - 1, by omega⟩
  cases h with
  | nil => exact readMembers_close size rounds false draft rest
  | @cons _ _ _ m ms htakes t =>
      rw [Json.membersText_cons, List.append_assoc, memberText_append,
        readMembers_member htakes (stops_flatMap memberText ms (.inr rfl) rest) rfl,
        readMembers_more t (by simpa using hr)]

/-- Reading the whole text of an object into an empty draft. -/
theorem decode_object {members : List (String × Json)} {draft : Draft}
    (h : ∀ rounds, 0 < rounds → Draft.TakesAll rounds .empty members draft) :
    decode (Json.object members).print =
      (draft.finish.mapError fun m =>
        (Fault.locate (Json.object members).text ⟨.shape m, [], 0⟩)) := by
  have htext : (Json.object members).text = '{' :: (membersText members ++ ['}']) := by
    rw [Json.text]
  have hcount := (Json.length_le_membersText members).1
  have hread : read ((Json.object members).text.length + 1) (Json.object members).text =
      finishing draft [] := by
    rw [htext]
    exact readMembers_membersText (h _ (Nat.succ_pos _)) (by simp; omega) []
  rw [decode, Json.readAll, Json.print, String.toList_ofList, hread, finishing]
  cases draft.finish <;> rfl

/-! ### The members of an ack -/

theorem choice_quote {α : Type} {choices : List (String × α)} {name : String} {a : α}
    (h : choices.lookup name = some a) (rest : List Char) :
    Json.Decoder.choice choices (Json.quote name ++ rest) = .ok (a, rest) := by
  have hspace : ∀ cs, Json.Token.skipSpace ('"' :: cs) = '"' :: cs := skipSpace_cons rfl
  rw [Json.quote_append, Json.Decoder.choice, hspace]
  simp only [Json.Decoder.choiceName, Json.Decoder.string, hspace, stringBody_quote, h, bind,
    Except.bind]

theorem string_quote (expected s : String) (rest : List Char) :
    Json.Decoder.string expected (Json.quote s ++ rest) = .ok (s, rest) := by
  have hspace : ∀ cs, Json.Token.skipSpace ('"' :: cs) = '"' :: cs := skipSpace_cons rfl
  rw [Json.quote_append, Json.Decoder.string, hspace]
  exact stringBody_quote s rest

theorem readText_quote (s : String) (rest : List Char) :
    readText (Json.quote s ++ rest) = .ok (some s, rest) := by
  have hstring := string_quote "a string" s rest
  rw [Json.quote_append] at hstring ⊢
  change (Json.Decoder.string "a string" _ >>= fun r => .ok (some r.1, r.2)) = _
  rw [hstring]
  rfl

theorem lookup_choices (status : Status) : Status.choices.lookup status.word = some status := by
  cases status <;> rfl

theorem takes_status (rounds : Nat) (status : Status) :
    Draft.empty.Takes rounds ("status", .string status.word) ⟨some status, none, none⟩ := by
  intro rest _
  have hread := choice_quote (lookup_choices status) rest
  rw [Draft.readField, if_pos rfl]
  simp only [Draft.empty, Json.text, Json.colon_cons, hread, bind, Except.bind]

theorem takes_plugin (rounds : Nat) (status : Option Status) (s : String) :
    Draft.Takes rounds ⟨status, none, none⟩ ("plugin", .string s)
      ⟨status, some (some s), none⟩ := by
  intro rest _
  rw [Draft.readField, if_neg (by decide : ¬ "plugin" = "status"), if_pos rfl]
  simp only [Json.text, Json.colon_cons, readText_quote, bind, Except.bind]

theorem takes_message (rounds : Nat) (status : Option Status) (plugin : Option (Option String))
    (s : String) :
    Draft.Takes rounds ⟨status, plugin, none⟩ ("message", .string s)
      ⟨status, plugin, some (some s)⟩ := by
  intro rest _
  rw [Draft.readField, if_neg (by decide : ¬ "message" = "status"),
    if_neg (by decide : ¬ "message" = "plugin"), if_pos rfl]
  simp only [Json.text, Json.colon_cons, readText_quote, bind, Except.bind]

theorem takesAll_member_message (rounds : Nat) (status : Option Status)
    (plugin : Option (Option String)) (message : Option String) :
    Draft.TakesAll rounds ⟨status, plugin, none⟩ (member "message" message)
      ⟨status, plugin, message.map some⟩ := by
  cases message with
  | none => exact .nil _
  | some s => exact .cons (takes_message rounds status plugin s) (.nil _)

theorem takesAll_members (rounds : Nat) (ack : Ack) :
    Draft.TakesAll rounds .empty
      (("status", .string ack.status.word) ::
        (member "plugin" ack.plugin ++ member "message" ack.message))
      ⟨some ack.status, ack.plugin.map some, ack.message.map some⟩ := by
  refine .cons (takes_status rounds ack.status) ?_
  cases ack.plugin with
  | none => exact takesAll_member_message rounds _ none ack.message
  | some s =>
      exact .cons (takes_plugin rounds _ s) (takesAll_member_message rounds _ _ ack.message)

/-- **An ack reads back**, whatever texts it carries. -/
theorem decode_print (ack : Ack) : decode ack.print = .ok ack := by
  obtain ⟨status, plugin, message⟩ := ack
  rw [print, toJson,
    decode_object fun rounds _ => takesAll_members rounds ⟨status, plugin, message⟩]
  cases plugin <;> cases message <;> rfl

/-- Any other member is passed over, if its value can be. -/
theorem takes_other {rounds : Nat} (hrounds : 0 < rounds) (draft : Draft) {m : String × Json}
    (hname : m.1 ∉ ["status", "plugin", "message"]) (hvalue : Json.Skip.Passes m.2) :
    draft.Takes rounds m draft := by
  intro rest hrest
  simp only [List.mem_cons, List.not_mem_nil, or_false, not_or] at hname
  rw [Draft.readField, if_neg hname.1, if_neg hname.2.1, if_neg hname.2.2]
  simp only [Json.colon_cons, hvalue rounds rest hrounds hrest, bind, Except.bind]

theorem takesAll_others {rounds : Nat} (hrounds : 0 < rounds) (draft : Draft)
    {ms : List (String × Json)}
    (h : ∀ m ∈ ms, m.1 ∉ ["status", "plugin", "message"] ∧ Json.Skip.Passes m.2) :
    Draft.TakesAll rounds draft ms draft := by
  induction ms with
  | nil => exact .nil draft
  | cons m ms ih =>
      obtain ⟨hname, hvalue⟩ := h m (List.mem_cons_self ..)
      exact .cons (takes_other hrounds draft hname hvalue)
        (ih fun w hw => h w (List.mem_cons_of_mem _ hw))

/-- **A chunk is no ack**, whatever text it carries. -/
theorem exists_decode_document (c : Chunk) : ∃ e, decode c.document = .error e := by
  refine ⟨_, decode_object fun rounds hrounds => takesAll_others hrounds .empty fun m hm => ?_⟩
  simp only [List.mem_cons, List.not_mem_nil, or_false] at hm
  rcases hm with rfl | rfl | rfl | rfl | rfl | rfl
  · exact ⟨by simp, Json.Skip.passes_natural _⟩
  · exact ⟨by simp, Json.Skip.passes_string _⟩
  · exact ⟨by simp, Json.Skip.passes_natural _⟩
  · exact ⟨by simp, Json.Skip.passes_natural _⟩
  · exact ⟨by simp, Json.Skip.passes_natural _⟩
  · exact ⟨by simp, Json.Skip.passes_string _⟩

end NativeMessaging.Ack
