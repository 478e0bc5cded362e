import NativeMessaging.Proofs.Toml.Table
import NativeMessaging.Toml.Parser

/-!
# Toml — the keys of a document

What the readers of values and lines give, and what a whole document spells, has no key twice.

* `Number.isScalar_read`: numbers, dates and times hold no other values.
* `gives_readValue`: no value of a document has a key twice, by induction on the nesting left.
* `Draft.Distinct`: nor has a document under way; every line keeps that.
* `distinct_parse`: nor has a whole document.
-/

namespace NativeMessaging.Toml

/-- What a reader gives, where it gives something, has a property. -/
def Gives {α : Type} (P : α → Prop) (reader : Reader α) : Prop :=
  ∀ cs a rest, reader cs = some (a, rest) → P a

/-! ### Numbers, dates and times -/

namespace Number

variable {v : Value} {rest cs : List Char} {negative : Bool}

theorem isScalar_integer {i : Int} (h : integer i = some v) : v.IsScalar := by
  rw [integer] at h
  split at h
  · exact Option.some.inj h ▸ trivial
  · cases h

theorem isScalar_radix {base : Nat} {isDigit : Char → Bool}
    (h : radix base isDigit cs = some (v, rest)) : v.IsScalar := by
  obtain ⟨⟨ds, _⟩, -, h⟩ := Option.bind_eq_some_iff.mp h
  obtain ⟨w, hw, h⟩ := Option.bind_eq_some_iff.mp h
  obtain ⟨rfl, -⟩ := Prod.mk.inj (Option.some.inj h)
  exact isScalar_integer hw

theorem isScalar_decimal (h : decimal negative cs = some (v, rest)) : v.IsScalar := by
  obtain ⟨⟨whole, behind⟩, -, h⟩ := Option.bind_eq_some_iff.mp h
  dsimp only at h
  split at h
  · obtain ⟨⟨fraction, _⟩, -, h⟩ := Option.bind_eq_some_iff.mp h
    obtain ⟨⟨e, _⟩, -, h⟩ := Option.bind_eq_some_iff.mp h
    obtain ⟨x, -, h⟩ := Option.bind_eq_some_iff.mp h
    exact (Prod.mk.inj (Option.some.inj h)).1 ▸ trivial
  · obtain ⟨⟨e, _⟩, -, h⟩ := Option.bind_eq_some_iff.mp h
    obtain ⟨x, -, h⟩ := Option.bind_eq_some_iff.mp h
    exact (Prod.mk.inj (Option.some.inj h)).1 ▸ trivial
  · obtain ⟨⟨e, _⟩, -, h⟩ := Option.bind_eq_some_iff.mp h
    obtain ⟨x, -, h⟩ := Option.bind_eq_some_iff.mp h
    exact (Prod.mk.inj (Option.some.inj h)).1 ▸ trivial
  · obtain ⟨w, hw, h⟩ := Option.bind_eq_some_iff.mp h
    obtain ⟨rfl, -⟩ := Prod.mk.inj (Option.some.inj h)
    exact isScalar_integer hw

theorem isScalar_signed (h : signed negative cs = some (v, rest)) : v.IsScalar := by
  rw [signed.eq_def] at h
  split at h
  · exact (Prod.mk.inj (Option.some.inj h)).1 ▸ trivial
  · exact (Prod.mk.inj (Option.some.inj h)).1 ▸ trivial
  · exact isScalar_decimal h

theorem isScalar_number (h : number cs = some (v, rest)) : v.IsScalar := by
  rw [number.eq_def] at h
  split at h
  · exact isScalar_signed h
  · exact isScalar_signed h
  · exact isScalar_radix h
  · exact isScalar_radix h
  · exact isScalar_radix h
  · exact isScalar_signed h

theorem isScalar_dateTime {day : List Char} (h : dateTime day cs = some (v, rest)) :
    v.IsScalar := by
  rw [dateTime.eq_def] at h
  dsimp only at h
  split at h
  · split at h
    · obtain ⟨⟨time, _⟩, -, h⟩ := Option.bind_eq_some_iff.mp h
      obtain ⟨⟨offset, _⟩, -, h⟩ := Option.bind_eq_some_iff.mp h
      exact (Prod.mk.inj (Option.some.inj h)).1 ▸ trivial
    · exact (Prod.mk.inj (Option.some.inj h)).1 ▸ trivial
  · exact (Prod.mk.inj (Option.some.inj h)).1 ▸ trivial

/-- **Numbers, dates and times** hold no other values. -/
theorem isScalar_read : Gives Value.IsScalar read := by
  intro cs v rest h
  rw [read] at h
  split at h
  · obtain ⟨⟨day, _⟩, -, h⟩ := Option.bind_eq_some_iff.mp h
    exact isScalar_dateTime h
  · split at h
    · obtain ⟨⟨time, _⟩, -, h⟩ := Option.bind_eq_some_iff.mp h
      exact (Prod.mk.inj (Option.some.inj h)).1 ▸ trivial
    · exact isScalar_number h

end Number

/-! ### Values -/

variable {element : Reader Value} {P : Value → Prop}

theorem gives_readItems (helement : Gives P element) {size : Nat} :
    ∀ {rounds : Nat} {acc : List Value}, (∀ v ∈ acc, P v) →
      Gives (fun items => ∀ v ∈ items, P v) (readItems element size rounds acc) := by
  intro rounds
  induction rounds with
  | zero =>
      intro acc hacc cs items rest h
      cases h
  | succ rounds ih =>
      intro acc hacc cs items rest h
      obtain ⟨cs', -, h⟩ := Option.bind_eq_some_iff.mp h
      dsimp only at h
      split at h
      · obtain ⟨rfl, -⟩ := Prod.mk.inj (Option.some.inj h)
        exact fun v hv => hacc v (List.mem_reverse.mp hv)
      · obtain ⟨⟨v, behind⟩, hv, h⟩ := Option.bind_eq_some_iff.mp h
        obtain ⟨behind', -, h⟩ := Option.bind_eq_some_iff.mp h
        have hacc' : ∀ w ∈ v :: acc, P w := List.forall_mem_cons.mpr ⟨helement _ _ _ hv, hacc⟩
        dsimp only at h
        split at h
        · exact ih hacc' _ _ _ h
        · obtain ⟨rfl, -⟩ := Prod.mk.inj (Option.some.inj h)
          exact fun w hw => hacc' w (List.mem_reverse.mp hw)
        · cases h

theorem gives_readAssignment (helement : Gives P element) :
    Gives (fun assignment => P assignment.2) (readAssignment element) := by
  intro cs assignment rest h
  obtain ⟨⟨key, behind⟩, -, h⟩ := Option.bind_eq_some_iff.mp h
  dsimp only at h
  split at h
  · obtain ⟨⟨v, behind'⟩, hv, h⟩ := Option.bind_eq_some_iff.mp h
    obtain ⟨rfl, -⟩ := Prod.mk.inj (Option.some.inj h)
    exact helement _ _ _ hv
  · cases h

theorem gives_readEntries (helement : Gives P element) :
    ∀ {rounds : Nat} {acc : List (List String × Value)}, (∀ assignment ∈ acc, P assignment.2) →
      Gives (fun keys => ∀ assignment ∈ keys, P assignment.2) (readEntries element rounds acc) := by
  intro rounds
  induction rounds with
  | zero =>
      intro acc hacc cs keys rest h
      cases h
  | succ rounds ih =>
      intro acc hacc cs keys rest h
      obtain ⟨⟨assignment, behind⟩, ha, h⟩ := Option.bind_eq_some_iff.mp h
      have hacc' : ∀ a ∈ assignment :: acc, P a.2 :=
        List.forall_mem_cons.mpr ⟨gives_readAssignment helement _ _ _ ha, hacc⟩
      dsimp only at h
      split at h
      · exact ih hacc' _ _ _ h
      · obtain ⟨rfl, -⟩ := Prod.mk.inj (Option.some.inj h)
        exact fun a ha => hacc' a (List.mem_reverse.mp ha)
      · cases h

theorem gives_readInlineTable (helement : Gives Value.Distinct element) {rounds : Nat} :
    Gives Value.Distinct (readInlineTable element rounds) := by
  intro cs v rest h
  rw [readInlineTable] at h
  split at h
  · obtain ⟨rfl, -⟩ := Prod.mk.inj (Option.some.inj h)
    exact Value.distinct_table_iff.mpr .nil
  · obtain ⟨⟨keys, behind⟩, hkeys, h⟩ := Option.bind_eq_some_iff.mp h
    obtain ⟨es, hes, h⟩ := Option.bind_eq_some_iff.mp h
    obtain ⟨rfl, -⟩ := Prod.mk.inj (Option.some.inj h)
    have hdistinct := gives_readEntries helement (List.forall_mem_nil _) _ _ _ hkeys
    exact Value.distinct_table_iff.mpr (Entries.distinct_setKeys hdistinct hes)

/-- A value is one that holds no others, or an array or a table of values with one level of nesting
less. -/
theorem readValue_cases {rounds depth : Nat} {cs rest : List Char} {v : Value}
    (h : readValue rounds depth cs = some (v, rest)) :
    v.IsScalar ∨ ∃ inner, depth = inner + 1 ∧
      ((∃ items behind, readItems (readValue rounds inner) rounds rounds [] behind =
          some (items, rest) ∧ v = .array items) ∨
        ∃ behind, readInlineTable (readValue rounds inner) rounds behind = some (v, rest)) := by
  rw [readValue.eq_def] at h
  dsimp only at h
  split at h
  · obtain ⟨⟨s, behind⟩, -, h⟩ := Option.bind_eq_some_iff.mp h
    exact .inl ((Prod.mk.inj (Option.some.inj h)).1 ▸ trivial)
  · obtain ⟨⟨s, behind⟩, -, h⟩ := Option.bind_eq_some_iff.mp h
    exact .inl ((Prod.mk.inj (Option.some.inj h)).1 ▸ trivial)
  · exact .inl ((Prod.mk.inj (Option.some.inj h)).1 ▸ trivial)
  · exact .inl ((Prod.mk.inj (Option.some.inj h)).1 ▸ trivial)
  · next behind =>
    cases depth with
    | zero       => cases h
    | succ inner =>
        obtain ⟨⟨items, rest'⟩, hitems, h⟩ := Option.bind_eq_some_iff.mp h
        obtain ⟨rfl, rfl⟩ := Prod.mk.inj (Option.some.inj h)
        exact .inr ⟨inner, rfl, .inl ⟨items, behind, hitems, rfl⟩⟩
  · next behind =>
    cases depth with
    | zero       => cases h
    | succ inner => exact .inr ⟨inner, rfl, .inr ⟨behind, h⟩⟩
  · exact .inl (Number.isScalar_read _ _ _ h)

/-- **No value has a key twice**, by induction on the nesting left. -/
theorem gives_readValue (rounds : Nat) :
    ∀ depth, Gives Value.Distinct (readValue rounds depth) := by
  intro depth
  induction depth with
  | zero =>
      intro cs v rest h
      rcases readValue_cases h with hscalar | ⟨inner, hinner, -⟩
      · exact .scalar hscalar
      · cases hinner
  | succ depth ih =>
      intro cs v rest h
      rcases readValue_cases h with
        hscalar | ⟨inner, hinner, ⟨items, behind, hitems, rfl⟩ | ⟨behind, htable⟩⟩
      · exact .scalar hscalar
      · obtain rfl := Nat.succ.inj hinner
        exact .array (gives_readItems ih (List.forall_mem_nil _) _ _ _ hitems)
      · obtain rfl := Nat.succ.inj hinner
        exact gives_readInlineTable ih _ _ _ htable

/-! ### Lines -/

/-- No key is there twice in the finished tables, nor in the one under way. -/
structure Draft.Distinct (draft : Draft) : Prop where
  root : draft.root.Distinct
  current : draft.current.Distinct

namespace Draft.Distinct

variable {draft draft' : Draft} {es : Entries}

theorem empty : Draft.empty.Distinct := ⟨.nil, .nil⟩

theorem finish (h : draft.Distinct) (hfinish : draft.finish = some es) : es.Distinct := by
  rw [Draft.finish.eq_def] at hfinish
  have htable : Value.Distinct (.table .header draft.current) :=
    Value.distinct_table_iff.mpr h.current
  split at hfinish
  · exact Option.some.inj hfinish ▸ h.current
  · next header _ =>
    obtain ⟨name, -, hdescend⟩ := Option.bind_eq_some_iff.mp hfinish
    refine h.root.descend (fun kind es es' hes hes' => ?_) hdescend
    split at hes'
    · refine hes.update (fun old new hold hnew => ?_) hes'
      split at hnew
      · exact Option.some.inj hnew ▸ .tables (List.forall_mem_singleton.mpr htable)
      · refine Option.some.inj hnew ▸ .tables fun v hv => ?_
        rcases List.mem_append.mp hv with hmem | hlast
        · exact (hold _ rfl).of_mem_tables hmem
        · exact List.mem_singleton.mp hlast ▸ htable
      · cases hnew
    · exact hes.insertNew htable hes'

theorem opened {header : Section} (h : draft.Distinct) (hopen : draft.open header = some draft') :
    draft'.Distinct := by
  obtain ⟨root, hroot, hopen⟩ := Option.bind_eq_some_iff.mp hopen
  obtain ⟨name, -, hopen⟩ := Option.bind_eq_some_iff.mp hopen
  have hroot := h.finish hroot
  dsimp only at hopen
  split at hopen
  · obtain ⟨root', hroot', hopen⟩ := Option.bind_eq_some_iff.mp hopen
    exact Option.some.inj hopen ▸ ⟨hroot.descend (fun _ _ _ hes => hes.reserve) hroot', .nil⟩
  · obtain ⟨current, hcurrent, hopen⟩ := Option.bind_eq_some_iff.mp hopen
    obtain ⟨root', hroot', hopen⟩ := Option.bind_eq_some_iff.mp hopen
    refine Option.some.inj hopen ▸ ⟨hroot.descend (fun kind es es' hes hes' => ?_) hroot', ?_⟩
    · obtain ⟨⟨kept, taken⟩, hreopen, heq⟩ := Option.bind_eq_some_iff.mp hes'
      exact Option.some.inj heq ▸ (hes.reopen hreopen).1
    · exact hroot.found hcurrent

theorem set {key : List String} {v : Value} (h : draft.Distinct) (hv : v.Distinct)
    (hset : draft.set key v = some draft') : draft'.Distinct := by
  obtain ⟨name, -, hset⟩ := Option.bind_eq_some_iff.mp hset
  obtain ⟨current, hcurrent, hset⟩ := Option.bind_eq_some_iff.mp hset
  exact Option.some.inj hset ▸ ⟨h.root, h.current.setKey hv hcurrent⟩

/-- **Every line** keeps keys apart, and so do all lines of a text. -/
theorem readLines {size rounds : Nat} {cs : List Char} (h : draft.Distinct)
    (hlines : readLines size rounds draft cs = some draft') : draft'.Distinct := by
  induction rounds generalizing draft cs with
  | zero => cases hlines
  | succ rounds ih =>
      obtain ⟨cs', -, hlines⟩ := Option.bind_eq_some_iff.mp hlines
      dsimp only at hlines
      split at hlines
      · exact Option.some.inj hlines ▸ h
      · obtain ⟨⟨header, behind⟩, -, hlines⟩ := Option.bind_eq_some_iff.mp hlines
        obtain ⟨opened, hopened, hlines⟩ := Option.bind_eq_some_iff.mp hlines
        exact ih (h.opened hopened) hlines
      · obtain ⟨⟨⟨key, v⟩, behind⟩, hv, hlines⟩ := Option.bind_eq_some_iff.mp hlines
        obtain ⟨set, hset, hlines⟩ := Option.bind_eq_some_iff.mp hlines
        obtain ⟨behind', -, hlines⟩ := Option.bind_eq_some_iff.mp hlines
        exact ih (h.set (gives_readAssignment (gives_readValue size maxDepth) _ _ _ hv) hset) hlines

end Draft.Distinct

/-! ### Documents -/

/-- **No key is there twice** in what a document spells. -/
theorem distinct_parse {s : String} {v : Value} (h : parse s = some v) : v.Distinct := by
  obtain ⟨draft, hdraft, h⟩ := Option.bind_eq_some_iff.mp h
  obtain ⟨es, hes, h⟩ := Option.bind_eq_some_iff.mp h
  have hdistinct := (Draft.Distinct.empty.readLines hdraft).finish hes
  exact Option.some.inj h ▸ Value.distinct_table_iff.mpr hdistinct

end NativeMessaging.Toml
