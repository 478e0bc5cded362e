import NativeMessaging.Json.Record
import NativeMessaging.Proofs.Json.RoundTrip

/-!
# Json — a printed record with a kind reads back

A record says its kind in its first member.  The reader takes the kind, keeps the other members as
the values that they are, and gives them to the reader of that kind of record.

* `readKindMembers_membersText`: the members behind the kind are kept, in order.
* `decodeKind_print`: reading the text of a record is reading its members, where its kind is known.
* `exists_decodeKind_print`: where it is not, the text is rejected.
-/

namespace NativeMessaging.Json

open Shape (Mismatch)
open Token (Stops skipSpace skipSpace_cons stringBody_quote)

variable {κ α : Type}

/-! ### The members -/

/-- A member that is not the kind is kept. -/
theorem readKindMembers_member {kind : Reader κ} {element : Reader Json} {rounds : Nat}
    {known : Option κ} {acc : List (String × Json)} {more : Bool} {cs rest : List Char}
    {m : String × Json} (hname : m.1 ≠ kindField) (hread : ReadsBack element m.2)
    (hstops : Stops rest)
    (hstart : memberStart more cs =
      .ok (.name (m.1.toList.flatMap escape ++ '"' :: ':' :: (text m.2 ++ rest)))) :
    readKindMembers kind element (rounds + 1) known acc more cs =
      readKindMembers kind element rounds known (m :: acc) true rest := by
  simp only [readKindMembers, hstart, stringBody_quote, if_neg hname, colon_cons,
    hread rest hstops, bind, Except.bind]

theorem readKindMembers_close (kind : Reader κ) (element : Reader Json) (rounds : Nat) (k : κ)
    (acc : List (String × Json)) (rest : List Char) :
    readKindMembers kind element (rounds + 1) (some k) acc true ('}' :: rest) =
      .ok ((k, .members acc.reverse), rest) := rfl

/-- **The members behind the kind** are kept, in order. -/
theorem readKindMembers_membersText {kind : Reader κ} {element : Reader Json} {k : κ}
    {ms : List (String × Json)} (hname : ∀ m ∈ ms, m.1 ≠ kindField)
    (hread : ∀ m ∈ ms, ReadsBack element m.2) {rounds : Nat} (hr : ms.length < rounds)
    (acc : List (String × Json)) (rest : List Char) :
    readKindMembers kind element rounds (some k) acc true
        (ms.flatMap (fun m => ',' :: memberText m) ++ '}' :: rest) =
      .ok ((k, .members (acc.reverse ++ ms)), rest) := by
  induction ms generalizing rounds acc with
  | nil =>
      obtain ⟨rounds, rfl⟩ : ∃ n, rounds = n + 1 := ⟨rounds - 1, by simp at hr; omega⟩
      rw [List.flatMap_nil, List.nil_append, readKindMembers_close, List.append_nil]
  | cons m ms ih =>
      obtain ⟨rounds, rfl⟩ : ∃ n, rounds = n + 1 := ⟨rounds - 1, by simp at hr; omega⟩
      rw [List.flatMap_cons, List.cons_append, List.cons_append, List.append_assoc,
        memberText_append,
        readKindMembers_member (hname m (List.mem_cons_self ..)) (hread m (List.mem_cons_self ..))
          (stops_flatMap memberText ms (.inr rfl) rest) rfl,
        ih (fun w hw => hname w (List.mem_cons_of_mem _ hw))
          (fun w hw => hread w (List.mem_cons_of_mem _ hw)) (by simpa using hr),
        List.reverse_cons, List.append_assoc, List.singleton_append]

/-! ### The kind -/

/-- The members of a record: its kind, and the others. -/
def recordMembers (name : String) (ms : List (String × Json)) : List (String × Json) :=
  (kindField, .string name) :: ms

/-- Members that are printable, and of which none is the kind. -/
def ArePlain (ms : List (String × Json)) : Prop :=
  ∀ m ∈ ms, m.1 ≠ kindField ∧ Printable (maxDepth - 1) m.2

/-- A known name is read as the choice that it stands for. -/
theorem choiceName_quote {choices : List (String × κ)} {name : String} {k : κ}
    (h : choices.lookup name = some k) (expected : String) (rest : List Char) :
    Decoder.choiceName choices expected (quote name ++ rest) = .ok (k, rest) := by
  have hspace : ∀ cs, skipSpace ('"' :: cs) = '"' :: cs := skipSpace_cons rfl
  rw [quote_append]
  simp only [Decoder.choiceName, Decoder.string, hspace, stringBody_quote, h, bind, Except.bind]

/-- An unknown name is rejected. -/
theorem exists_choiceName_quote {choices : List (String × κ)} {name : String}
    (h : choices.lookup name = none) (expected : String) (rest : List Char) :
    ∃ fault, Decoder.choiceName choices expected (quote name ++ rest) = .error fault := by
  have hspace : ∀ cs, skipSpace ('"' :: cs) = '"' :: cs := skipSpace_cons rfl
  rw [quote_append]
  simp only [Decoder.choiceName, Decoder.string, hspace, stringBody_quote, h, bind, Except.bind]
  exact ⟨_, rfl⟩

/-- The text of a record starts with the name of its kind. -/
theorem text_recordMembers (name : String) (ms : List (String × Json)) :
    text (.object (recordMembers name ms)) =
      '{' :: '"' :: (kindField.toList.flatMap escape ++ '"' :: ':' ::
        (quote name ++ (ms.flatMap (fun m => ',' :: memberText m) ++ ['}']))) := by
  rw [text, recordMembers, membersText_cons, List.append_assoc, memberText_append, text]

/-- A reader of records comes to the name of the kind, and goes on with the other members. -/
theorem readKind_recordMembers (label : String) (kind : Reader κ) (rounds : Nat) (name : String)
    (ms : List (String × Json)) :
    readKind label kind (rounds + 1) (text (.object (recordMembers name ms))) =
      (kind (quote name ++ (ms.flatMap (fun m => ',' :: memberText m) ++ ['}'])) >>= fun r =>
        readKindMembers kind (readValue (rounds + 1) (maxDepth - 1)) rounds (some r.1) [] true r.2)
      := by
  have hspace : ∀ cs, skipSpace ('{' :: cs) = '{' :: cs := skipSpace_cons rfl
  have hstart : ∀ cs, memberStart false ('"' :: cs) = .ok (.name cs) := fun _ => rfl
  rw [text_recordMembers, readKind, hspace]
  simp only [readKindMembers, hstart, stringBody_quote, colon_cons, if_true, bind, Except.bind]

/-- **Reading the text of a record** is reading its members, where its kind is known. -/
theorem decodeKind_print (label expected : String) {choices : List (String × κ)}
    (record : κ → Content → Except Mismatch α) {name : String} {k : κ}
    (hkind : choices.lookup name = some k) {ms : List (String × Json)} (hms : ArePlain ms) :
    decodeKind label (Decoder.choiceName choices expected) record
        (Json.object (recordMembers name ms)).print =
      (record k (.members ms)).mapError fun m => ⟨.shape m, none⟩ := by
  have hcount := length_le_flatMap memberText ms
  have heach : ∀ m ∈ ms, (text m.2).length ≤ (text (.object (recordMembers name ms))).length :=
    fun m hm => by
      have := (length_le_membersText (recordMembers name ms)).2 m (List.mem_cons_of_mem _ hm)
      rw [text]
      simp only [List.length_cons, List.length_append]
      omega
  have hread : ∀ m ∈ ms, ReadsBack (readValue
      ((text (.object (recordMembers name ms))).length + 1) (maxDepth - 1)) m.2 :=
    fun m hm => readValue_text (hms m hm).2 (Nat.le_succ_of_le (heach m hm))
  have hrounds : ms.length < (text (.object (recordMembers name ms))).length := by
    rw [text_recordMembers]
    simp only [List.length_cons, List.length_append]
    omega
  rw [decodeKind, print, String.toList_ofList, readKind_recordMembers, choiceName_quote hkind]
  simp only [bind, Except.bind, List.reverse_nil, List.nil_append,
    readKindMembers_membersText (fun m hm => (hms m hm).1) hread hrounds]
  cases record k (.members ms) <;> rfl

/-- A record of an unknown kind is rejected. -/
theorem exists_decodeKind_print (label expected : String) {choices : List (String × κ)}
    (record : κ → Content → Except Mismatch α) {name : String}
    (hkind : choices.lookup name = none) (ms : List (String × Json)) :
    ∃ e, decodeKind label (Decoder.choiceName choices expected) record
      (Json.object (recordMembers name ms)).print = .error e := by
  obtain ⟨fault, hfault⟩ := exists_choiceName_quote hkind expected
    (ms.flatMap (fun m => ',' :: memberText m) ++ ['}'])
  rw [decodeKind, print, String.toList_ofList, readKind_recordMembers, hfault]
  exact ⟨_, rfl⟩

end NativeMessaging.Json
