import NativeMessaging.Json.Reader
import NativeMessaging.Proofs.Json.Token

/-!
# Json — a printed value reads back

A value is *printable* within a depth when its arrays and objects are nested no deeper and its
numbers are natural numbers below `2 ^ 64` (`Printable`).

* `readValue_text`: the compact text of a printable value reads back as that value, with any rest
  behind it that does not go on like a number.
* `parse_print`: the whole text of a value that is printable within the reader's depth parses to
  that value.

The reader's loops are bounded by rounds; the length of the text is enough of them
(`length_le_itemsText`, `length_le_membersText`).
-/

namespace NativeMessaging.Json

open Token (Stops skipSpace isSpace)

/-- Nested no deeper than that, with natural numbers below `2 ^ 64` and no others. -/
inductive Printable : (depth : Nat) → Json → Prop where
  | null {depth : Nat} : Printable depth .null
  | bool {depth : Nat} (b : Bool) : Printable depth (.bool b)
  | natural {depth n : Nat} (h : n < UInt64.size) : Printable depth (.number (.natural n))
  | string {depth : Nat} (s : String) : Printable depth (.string s)
  | array {depth : Nat} {items : List Json} (h : ∀ v ∈ items, Printable depth v) :
      Printable (depth + 1) (.array items)
  | object {depth : Nat} {members : List (String × Json)} (h : ∀ m ∈ members, Printable depth m.2) :
      Printable (depth + 1) (.object members)

/-! ### The shape of the texts -/

/-- The text of a member. -/
def memberText (m : String × Json) : List Char := quote m.1 ++ ':' :: text m.2

theorem itemsText_cons (v : Json) (vs : List Json) :
    itemsText (v :: vs) = text v ++ vs.flatMap (fun w => ',' :: text w) := by
  induction vs generalizing v with
  | nil => simp [itemsText]
  | cons w vs ih => rw [itemsText, ih]; simp

theorem membersText_cons (m : String × Json) (ms : List (String × Json)) :
    membersText (m :: ms) = memberText m ++ ms.flatMap (fun m => ',' :: memberText m) := by
  induction ms generalizing m with
  | nil => simp [membersText, memberText]
  | cons m' ms ih => rw [membersText, ih]; simp [memberText]

/-- A text that stands where a value may start: with no blank and no closing bracket first. -/
def Opens (cs : List Char) : Prop :=
  ∃ c rest, cs = c :: rest ∧ isSpace c = false ∧ c ≠ ']'

theorem Opens.append {cs : List Char} (h : Opens cs) (rest : List Char) : Opens (cs ++ rest) := by
  obtain ⟨c, cs, rfl, hc⟩ := h
  exact ⟨c, cs ++ rest, rfl, hc⟩

theorem Opens.skipSpace {cs : List Char} (h : Opens cs) : skipSpace cs = cs := by
  obtain ⟨c, cs, rfl, hc, -⟩ := h
  simp [Token.skipSpace, hc]

theorem Printable.opens {depth : Nat} {v : Json} (h : Printable depth v) : Opens (text v) := by
  cases h with
  | null => exact ⟨'n', _, rfl, by decide, by decide⟩
  | bool b => cases b <;> exact ⟨_, _, rfl, by decide, by decide⟩
  | string s => exact ⟨'"', _, rfl, by decide, by decide⟩
  | array _ => exact ⟨'[', _, rfl, by decide, by decide⟩
  | object _ => exact ⟨'{', _, rfl, by decide, by decide⟩
  | @natural _ n _ =>
      obtain ⟨c, cs, hn, hc, -⟩ := Token.exists_natText n
      refine ⟨c, cs, hn, Token.isSpace_of_isDigit hc, ?_⟩
      rintro rfl
      exact absurd hc (by decide)

theorem Opens.length_pos {cs : List Char} (h : Opens cs) : 0 < cs.length := by
  obtain ⟨c, cs, rfl, -⟩ := h
  simp

/-! ### Lengths -/

theorem length_le_flatMap {α : Type} (f : α → List Char) (as : List α) :
    as.length ≤ (as.flatMap fun a => ',' :: f a).length := by
  induction as with
  | nil => simp
  | cons a as ih => simp only [List.flatMap_cons, List.length_append, List.length_cons]; omega

theorem length_le_flatMap_of_mem {α : Type} (f : α → List Char) {a : α} {as : List α}
    (h : a ∈ as) : (f a).length ≤ (as.flatMap fun a => ',' :: f a).length := by
  induction as with
  | nil => cases h
  | cons b as ih =>
      simp only [List.flatMap_cons, List.length_append, List.length_cons]
      rcases List.mem_cons.mp h with rfl | h
      · omega
      · have := ih h; omega

/-- The brackets hold as many characters as there are elements, and as every element has, or
more. -/
theorem length_le_itemsText {depth : Nat} {items : List Json}
    (h : ∀ v ∈ items, Printable depth v) :
    items.length ≤ (itemsText items).length ∧
      ∀ v ∈ items, (text v).length ≤ (itemsText items).length := by
  cases items with
  | nil => simp
  | cons v vs =>
      have hpos := (h v (by simp)).opens.length_pos
      have hlen := length_le_flatMap text vs
      rw [itemsText_cons]
      simp only [List.length_append, List.length_cons]
      refine ⟨by omega, fun w hw => ?_⟩
      rcases List.mem_cons.mp hw with rfl | hw
      · omega
      · have := length_le_flatMap_of_mem text hw; omega

theorem length_le_membersText (members : List (String × Json)) :
    members.length ≤ (membersText members).length ∧
      ∀ m ∈ members, (text m.2).length ≤ (membersText members).length := by
  cases members with
  | nil => simp
  | cons m ms =>
      have hpos : ∀ m, (text m.2).length < (memberText m).length := fun m => by
        simp [memberText]; omega
      have hm := hpos m
      have hlen := length_le_flatMap memberText ms
      rw [membersText_cons]
      simp only [List.length_append, List.length_cons]
      refine ⟨by omega, fun w hw => ?_⟩
      rcases List.mem_cons.mp hw with rfl | hw
      · omega
      · have := length_le_flatMap_of_mem memberText hw
        have := hpos w
        omega

/-! ### Reading back -/

/-- The reader takes the text of `v`, whatever stops behind it. -/
def ReadsBack (element : Reader Json) (v : Json) : Prop :=
  ∀ rest, Stops rest → element (text v ++ rest) = .ok (v, rest)

theorem stops_cons {c : Char} (h : c = ',' ∨ c = ']' ∨ c = '}') (cs : List Char) :
    Stops (c :: cs) := by
  intro d hd
  obtain rfl : c = d := by simpa using hd
  rcases h with rfl | rfl | rfl <;> decide

theorem stops_nil : Stops [] := fun _ h => by cases h

/-- What follows an element of a list in brackets or braces stops a number. -/
theorem stops_flatMap {α : Type} (f : α → List Char) (as : List α) {c : Char}
    (h : c = ']' ∨ c = '}') (rest : List Char) :
    Stops ((as.flatMap fun a => ',' :: f a) ++ c :: rest) := by
  cases as with
  | nil => exact stops_cons (.inr h) _
  | cons a as => exact stops_cons (.inl rfl) _

theorem readItems_close (element : Reader Json) (rounds : Nat) (more : Bool) (acc : List Json)
    (rest : List Char) :
    readItems element (rounds + 1) more acc (']' :: rest) = .ok (acc.reverse, rest) := by
  simp [readItems, skipSpace, isSpace]

theorem readItems_comma {element : Reader Json} {rounds : Nat} {acc : List Json}
    {cs rest : List Char} {v : Json} (hopen : Opens cs) (hread : element cs = .ok (v, rest)) :
    readItems element (rounds + 1) true acc (',' :: cs) =
      readItems element rounds true (v :: acc) rest := by
  have hcomma : skipSpace (',' :: cs) = ',' :: cs := rfl
  obtain ⟨c, cs, rfl, -, hc⟩ := id hopen
  simp [readItems, hcomma, hopen.skipSpace, hc, hread, bind, Except.bind]

theorem readItems_first {element : Reader Json} {rounds : Nat} {acc : List Json}
    {cs rest : List Char} {v : Json} (hopen : Opens cs) (hread : element cs = .ok (v, rest)) :
    readItems element (rounds + 1) false acc cs =
      readItems element rounds true (v :: acc) rest := by
  obtain ⟨c, cs, rfl, -, hc⟩ := id hopen
  simp [readItems, hopen.skipSpace, hc, hread, bind, Except.bind]

/-- The elements behind the first one. -/
theorem readItems_more {element : Reader Json} {vs : List Json}
    (hopen : ∀ v ∈ vs, Opens (text v)) (hread : ∀ v ∈ vs, ReadsBack element v)
    (rounds : Nat) (hr : vs.length < rounds) (acc : List Json) (rest : List Char) :
    readItems element rounds true acc (vs.flatMap (fun w => ',' :: text w) ++ ']' :: rest) =
      .ok (acc.reverse ++ vs, rest) := by
  induction vs generalizing rounds acc with
  | nil =>
      obtain ⟨rounds, rfl⟩ : ∃ k, rounds = k + 1 := ⟨rounds - 1, by simp at hr; omega⟩
      rw [List.flatMap_nil, List.nil_append, readItems_close, List.append_nil]
  | cons v vs ih =>
      obtain ⟨rounds, rfl⟩ : ∃ k, rounds = k + 1 := ⟨rounds - 1, by simp at hr; omega⟩
      have hv := (hopen v (by simp)).append (vs.flatMap (fun w => ',' :: text w) ++ ']' :: rest)
      have hnext := hread v (by simp) _ (stops_flatMap text vs (.inl rfl) rest)
      rw [List.flatMap_cons, List.cons_append, List.cons_append, List.append_assoc,
        readItems_comma hv hnext, ih (fun w hw => hopen w (by simp [hw]))
          (fun w hw => hread w (by simp [hw])) rounds (by simpa using hr)]
      simp

/-- **The elements of an array read back.** -/
theorem readItems_itemsText {element : Reader Json} {items : List Json}
    (hopen : ∀ v ∈ items, Opens (text v)) (hread : ∀ v ∈ items, ReadsBack element v)
    {rounds : Nat} (hr : items.length < rounds) (rest : List Char) :
    readItems element rounds false [] (itemsText items ++ ']' :: rest) = .ok (items, rest) := by
  obtain ⟨rounds, rfl⟩ : ∃ k, rounds = k + 1 := ⟨rounds - 1, by omega⟩
  cases items with
  | nil => exact readItems_close element rounds false [] rest
  | cons v vs =>
      have hv := (hopen v (by simp)).append (vs.flatMap (fun w => ',' :: text w) ++ ']' :: rest)
      have hfirst := hread v (by simp) _ (stops_flatMap text vs (.inl rfl) rest)
      rw [itemsText_cons, List.append_assoc, readItems_first hv hfirst,
        readItems_more (fun w hw => hopen w (by simp [hw])) (fun w hw => hread w (by simp [hw]))
          rounds (by simpa using hr)]
      simp

theorem readMembers_close (element : Reader Json) (rounds : Nat) (more : Bool)
    (acc : List (String × Json)) (rest : List Char) :
    readMembers element (rounds + 1) more acc ('}' :: rest) = .ok (acc.reverse, rest) := by
  cases more <;> rfl

theorem colon_cons (cs : List Char) : colon (':' :: cs) = .ok cs := rfl

/-- A member that is read, from the quotation mark of its name on. -/
theorem readMembers_member {element : Reader Json} {rounds : Nat} {more : Bool}
    {acc : List (String × Json)} {cs rest : List Char} {m : String × Json}
    (hread : ReadsBack element m.2) (hstops : Stops rest)
    (hstart : memberStart more cs =
      .ok (.name (m.1.toList.flatMap escape ++ '"' :: ':' :: (text m.2 ++ rest)))) :
    readMembers element (rounds + 1) more acc cs =
      readMembers element rounds true (m :: acc) rest := by
  simp only [readMembers, hstart, Token.stringBody_quote, colon_cons, hread rest hstops, bind,
    Except.bind]

theorem memberText_append (m : String × Json) (rest : List Char) :
    memberText m ++ rest =
      '"' :: (m.1.toList.flatMap escape ++ '"' :: ':' :: (text m.2 ++ rest)) := by
  simp [memberText, quote_append]

/-- The members behind the first one. -/
theorem readMembers_more {element : Reader Json} {ms : List (String × Json)}
    (hread : ∀ m ∈ ms, ReadsBack element m.2) (rounds : Nat) (hr : ms.length < rounds)
    (acc : List (String × Json)) (rest : List Char) :
    readMembers element rounds true acc
        (ms.flatMap (fun m => ',' :: memberText m) ++ '}' :: rest) =
      .ok (acc.reverse ++ ms, rest) := by
  induction ms generalizing rounds acc with
  | nil =>
      obtain ⟨rounds, rfl⟩ : ∃ k, rounds = k + 1 := ⟨rounds - 1, by simp at hr; omega⟩
      rw [List.flatMap_nil, List.nil_append, readMembers_close, List.append_nil]
  | cons m ms ih =>
      obtain ⟨rounds, rfl⟩ : ∃ k, rounds = k + 1 := ⟨rounds - 1, by simp at hr; omega⟩
      rw [List.flatMap_cons, List.cons_append, List.cons_append, List.append_assoc,
        memberText_append, readMembers_member (hread m (by simp))
          (stops_flatMap memberText ms (.inr rfl) rest) rfl,
        ih (fun w hw => hread w (by simp [hw])) rounds (by simpa using hr)]
      simp

/-- **The members of an object read back.** -/
theorem readMembers_membersText {element : Reader Json} {members : List (String × Json)}
    (hread : ∀ m ∈ members, ReadsBack element m.2) {rounds : Nat} (hr : members.length < rounds)
    (rest : List Char) :
    readMembers element rounds false [] (membersText members ++ '}' :: rest) =
      .ok (members, rest) := by
  obtain ⟨rounds, rfl⟩ : ∃ k, rounds = k + 1 := ⟨rounds - 1, by omega⟩
  cases members with
  | nil => exact readMembers_close element rounds false [] rest
  | cons m ms =>
      rw [membersText_cons, List.append_assoc, memberText_append,
        readMembers_member (hread m (by simp))
          (stops_flatMap memberText ms (.inr rfl) rest) rfl,
        readMembers_more (fun w hw => hread w (by simp [hw])) rounds (by simpa using hr)]
      simp

/-- A text whose first character is a digit is read as a number. -/
theorem readValue_digit {rounds depth : Nat} {c : Char} (hc : c.isDigit = true) (cs : List Char) :
    readValue rounds depth (c :: cs) =
      (Token.number false (c :: cs)).map fun (n, rest) => (.number n, rest) := by
  have hspace := Token.skipSpace_cons (Token.isSpace_of_isDigit hc) cs
  have hne : ∀ d : Char, d.isDigit = false → c ≠ d := fun d hd h => by rw [h, hd] at hc; cases hc
  rw [readValue]
  simp [hspace, hc, hne 'n' rfl, hne 't' rfl, hne 'f' rfl, hne '"' rfl, hne '-' rfl, hne '[' rfl,
    hne '{' rfl]
  cases Token.number false (c :: cs) <;> rfl

/-- **A printable value reads back.** -/
theorem readValue_text {depth : Nat} {v : Json} (h : Printable depth v) {rounds : Nat}
    (hr : (text v).length ≤ rounds) : ReadsBack (readValue rounds depth) v := by
  induction h with
  | null => intro rest _; rw [readValue]; rfl
  | bool b => intro rest _; rw [readValue]; cases b <;> rfl
  | @natural _ n h =>
      intro rest hrest
      have hnum := Token.number_natText h hrest
      obtain ⟨c, cs, hn, hc, -⟩ := Token.exists_natText n
      rw [hn, List.cons_append] at hnum
      rw [text, Number.text, hn, List.cons_append, readValue_digit hc, hnum]
      rfl
  | string s =>
      intro rest _
      have hspace : ∀ cs, skipSpace ('"' :: cs) = '"' :: cs := Token.skipSpace_cons rfl
      rw [text, quote_append, readValue]
      simp only [hspace, Token.stringBody_quote, bind, Except.bind]
  | @array depth items h ih =>
      -- an element is read in one round less, and its text is shorter by the brackets
      intro rest _
      have hspace : ∀ cs, skipSpace ('[' :: cs) = '[' :: cs := Token.skipSpace_cons rfl
      rw [text, List.length_cons, List.length_append, List.length_singleton] at hr
      obtain ⟨hcount, heach⟩ := length_le_itemsText h
      have hread : ∀ v ∈ items, ReadsBack (readValue rounds depth) v :=
        fun v hv => ih v hv (by have := heach v hv; omega)
      have hrounds : items.length < rounds := by omega
      have hitems := readItems_itemsText (fun v hv => (h v hv).opens) hread hrounds rest
      rw [text, List.cons_append, List.append_assoc, List.singleton_append, readValue]
      simp only [hspace, hitems, bind, Except.bind]
  | @object depth members h ih =>
      intro rest _
      have hspace : ∀ cs, skipSpace ('{' :: cs) = '{' :: cs := Token.skipSpace_cons rfl
      rw [text, List.length_cons, List.length_append, List.length_singleton] at hr
      obtain ⟨hcount, heach⟩ := length_le_membersText members
      have hread : ∀ m ∈ members, ReadsBack (readValue rounds depth) m.2 :=
        fun m hm => ih m hm (by have := heach m hm; omega)
      have hrounds : members.length < rounds := by omega
      have hmembers := readMembers_membersText hread hrounds rest
      rw [text, List.cons_append, List.append_assoc, List.singleton_append, readValue]
      simp only [hspace, hmembers, bind, Except.bind]

/-- **Parsing undoes printing.** -/
theorem parse_print {v : Json} (h : Printable maxDepth v) : parse v.print = .ok v := by
  have hread := readValue_text h (Nat.le_succ _) [] stops_nil
  rw [List.append_nil] at hread
  simp only [parse, readAll, print, String.toList_ofList, hread, bind, Except.bind]
  rfl

end NativeMessaging.Json
