import NativeMessaging.Proofs.Message.Grammar
import NativeMessaging.Proofs.Message.Settled

/-!
# Message — what is pending is unfinished

A table keeps what has come of a message only while something is missing.  The test for that counts
fragments and looks at no place; it is right because the fragments of a pending message stand at
places of the message, and at none of them twice (`PendingMessage.Placed`), whatever the chunks were.

* `PendingMessage.Placed.isComplete_iff`: the test says whether every place has its fragment.
* `Reassembler.accept_inv`: a chunk either clears its message from the table, or adds to it.
* `Reassembler.Sound.accept`, `sound_after`: no chunk leaves a message in the table that is
  complete, or of which nothing has come.
* `Reassembler.declared_accept`, `exists_after_of_held`: a message that stays in the table keeps
  what it declares.
* `Reassembler.size_accept`: a chunk changes the size of the table by one at most.
* `Reassembler.unfinished_after`: all of this, for every table that is given chunks.
-/

namespace NativeMessaging

namespace PendingMessage

variable {p : PendingMessage} {n : UInt32} {s : String}

/-- The fragments stand at places of the message, in order, and so at no place twice. -/
structure Placed (p : PendingMessage) : Prop where
  inRange : ∀ e ∈ p.fragments, 1 ≤ e.1 ∧ e.1 ≤ p.declared
  ascending : p.fragments.Pairwise fun e later => e.1 < later.1

/-- Something has come of the message, and something is missing. -/
structure Unfinished (p : PendingMessage) : Prop extends p.Placed where
  started : 1 ≤ p.fragments.length
  fewer : p.fragments.length < p.declared.toNat

/-! ### Placed fragments are a function of the place -/

theorem mem_filled {ps : List UInt32} {f : UInt32 → Option String} :
    (n, s) ∈ filled ps f ↔ n ∈ ps ∧ f n = some s := by
  rw [filled, List.mem_filterMap]
  constructor
  · rintro ⟨m, hm, hms⟩
    obtain ⟨t, ht, heq⟩ := Option.map_eq_some_iff.mp hms
    obtain ⟨rfl, rfl⟩ := Prod.mk.inj heq
    exact ⟨hm, ht⟩
  · rintro ⟨hn, hs⟩
    exact ⟨n, hn, by rw [hs]; rfl⟩

theorem ascending_filled {ps : List UInt32} (hps : ps.Pairwise (· < ·))
    (f : UInt32 → Option String) : (filled ps f).Pairwise fun e later => e.1 < later.1 := by
  refine List.pairwise_filterMap.mpr (hps.imp fun {m m'} hlt e he e' he' => ?_)
  obtain ⟨t, -, rfl⟩ := Option.map_eq_some_iff.mp he
  obtain ⟨t', -, rfl⟩ := Option.map_eq_some_iff.mp he'
  exact hlt

theorem mem_places_iff {count : UInt32} : n ∈ places count ↔ 1 ≤ n ∧ n ≤ count :=
  mem_places.trans Envelope.range_iff

theorem placed_holding (count : UInt32) (colony : ColonyId) (direction : Direction)
    (f : UInt32 → Option String) : (holding count colony direction f).Placed where
  inRange _ he := mem_places_iff.mp (mem_filled.mp he).1
  ascending := ascending_filled (pairwise_places count) f

/-- Fragments that are placed are those that a function gives for the places. -/
theorem Placed.exists_holding (h : p.Placed) :
    ∃ f, p = holding p.declared p.colony p.direction f := by
  let f : UInt32 → Option String := fun n => p.fragments.lookup n
  have hnodup : (p.fragments.map Prod.fst).Nodup :=
    List.pairwise_map.mpr (h.ascending.imp UInt32.ne_of_lt)
  have hfilled := ascending_filled (pairwise_places p.declared) f
  have hperm : p.fragments.Perm (filled (places p.declared) f) := by
    refine (List.perm_ext_iff_of_nodup hnodup.of_map
      (hfilled.imp fun hlt heq => UInt32.ne_of_lt hlt (congrArg Prod.fst heq))).mpr fun e => ?_
    rw [mem_filled]
    constructor
    · intro he
      exact ⟨mem_places_iff.mpr (h.inRange e he), lookup_of_mem hnodup he⟩
    · exact fun he => mem_of_lookup he.2
  have heq : p.fragments = filled (places p.declared) f :=
    hperm.eq_of_pairwise (fun _ _ _ _ hlt hgt => absurd hgt (UInt32.lt_asymm hlt)) h.ascending
      hfilled
  exact ⟨f, congrArg (PendingMessage.mk _ _ _) heq⟩

/-- **The test for completeness** says whether every place has its fragment. -/
theorem Placed.isComplete_iff (h : p.Placed) :
    p.isComplete = true ↔ ∀ n, 1 ≤ n → n ≤ p.declared → ∃ s, (n, s) ∈ p.fragments := by
  obtain ⟨f, hf⟩ := h.exists_holding
  have hmem (n : UInt32) (s : String) :
      (n, s) ∈ p.fragments ↔ n ∈ places p.declared ∧ f n = some s := by
    rw [hf]
    exact mem_filled
  have hall : p.isComplete = (places p.declared).all fun n => (f n).isSome := by
    conv_lhs => rw [hf]
    exact isComplete_holding
  rw [hall, List.all_eq_true]
  simp only [hmem, mem_places_iff, Option.isSome_iff_exists]
  exact ⟨fun h n h₁ h₂ => (h n ⟨h₁, h₂⟩).imp fun _ hs => ⟨⟨h₁, h₂⟩, hs⟩,
    fun h n hn => (h n hn.1 hn.2).imp fun _ hs => hs.2⟩

/-- A fragment for a place is placed with the others, and is there then. -/
theorem Placed.insert (h : p.Placed) (hn : 1 ≤ n ∧ n ≤ p.declared) (s : String) :
    (p.insert n s).Placed ∧ (n, s) ∈ (p.insert n s).fragments := by
  obtain ⟨f, hf⟩ := h.exists_holding
  have hplace := mem_places_iff.mpr hn
  rw [hf, insert_holding hplace]
  exact ⟨placed_holding .., mem_filled.mpr ⟨hplace, Function.update_self ..⟩⟩

theorem placed_ofChunk (c : Chunk) : (ofChunk c).Placed := by
  rw [ofChunk_eq_holding]
  exact placed_holding ..

/-! ### Messages of which something is missing -/

namespace Unfinished

theorem isComplete_eq_false (h : p.Unfinished) : p.isComplete = false :=
  decide_eq_false (Nat.not_le.mpr h.fewer)

theorem two_le (h : p.Unfinished) : 2 ≤ p.declared.toNat := by
  have hstarted := h.started
  have hfewer := h.fewer
  omega

/-- Some place has no fragment. -/
theorem exists_missing (h : p.Unfinished) :
    ∃ n, 1 ≤ n ∧ n ≤ p.declared ∧ ∀ s, (n, s) ∉ p.fragments := by
  have hincomplete : ¬ p.isComplete = true := by
    rw [h.isComplete_eq_false]
    exact Bool.false_ne_true
  rw [h.isComplete_iff] at hincomplete
  push Not at hincomplete
  exact hincomplete

end Unfinished

end PendingMessage

namespace Reassembler

variable {table : Reassembler} {c : Chunk} {id : MessageId} {p p' : PendingMessage}

/-! ### One chunk -/

/-- **A chunk** either clears its message from the table, or it is in range and of the declared
count, its fragment is added to those that are there, and the message is not complete. -/
theorem accept_inv (table : Reassembler) (c : Chunk) :
    (table.accept c).2 = table.erase c.id ∨
      ∃ known, known = (table.get? c.id).getD (.ofChunk c) ∧
        (1 ≤ c.sequence ∧ c.sequence ≤ known.declared) ∧
        (known.insert c.sequence c.fragment).isComplete = false ∧
        (table.accept c).2 = table.insert c.id (known.insert c.sequence c.fragment) := by
  unfold accept
  split
  · exact .inl rfl
  · next hrange =>
    dsimp only
    split
    · exact .inl rfl
    · next hcount =>
      split
      · exact .inl rfl
      · next hcomplete =>
        have hrange' := Envelope.range_iff.mp hrange
        rw [← not_not.mp hcount] at hrange'
        exact .inr ⟨_, rfl, hrange', Bool.eq_false_of_not_eq_true hcomplete, rfl⟩

/-- Every message is held once, and is unfinished. -/
structure Sound (table : Reassembler) : Prop where
  distinct : table.Distinct
  unfinished : ∀ entry ∈ table.pending, entry.2.Unfinished

theorem sound_empty : empty.Sound := ⟨distinct_empty, List.forall_mem_nil _⟩

theorem Sound.placed_known (h : table.Sound) (c : Chunk) :
    ((table.get? c.id).getD (.ofChunk c)).Placed := by
  cases hget : table.get? c.id with
  | none   => exact PendingMessage.placed_ofChunk c
  | some p => exact (h.unfinished _ (mem_of_lookup hget)).toPlaced

/-- **No chunk** leaves a message in the table that is complete, or of which nothing has come. -/
theorem Sound.accept (h : table.Sound) (c : Chunk) : (table.accept c).2.Sound := by
  refine ⟨h.distinct.accept c, fun entry hentry => ?_⟩
  rcases table.accept_inv c with heq | ⟨known, hknown, hrange, hincomplete, heq⟩
  · rw [heq] at hentry
    exact h.unfinished entry (List.mem_of_mem_filter hentry)
  · rw [heq] at hentry
    rcases List.mem_cons.mp hentry with rfl | hentry
    · obtain ⟨hplaced, hmem⟩ := (hknown ▸ h.placed_known c).insert hrange c.fragment
      exact {
        toPlaced := hplaced
        started := List.length_pos_of_mem hmem
        fewer := Nat.lt_of_not_le (of_decide_eq_false hincomplete) }
    · exact h.unfinished entry (List.mem_of_mem_filter hentry)

/-- What a message declares does not change while the table holds it. -/
theorem declared_accept (h : table.get? id = some p)
    (h' : (table.accept c).2.get? id = some p') : p'.declared = p.declared := by
  by_cases hid : id = c.id
  · subst hid
    rcases table.accept_inv c with heq | ⟨known, hknown, -, -, heq⟩
    · rw [heq, get?_erase, if_pos rfl] at h'
      cases h'
    · rw [heq, get?_insert, if_pos rfl] at h'
      obtain rfl := Option.some.inj h'
      rw [hknown, h]
      rfl
  · rw [get?_accept_of_ne table c hid, h] at h'
    exact congrArg PendingMessage.declared (Option.some.inj h').symm

/-- Of two tables that hold the same but of one message, neither holds two messages more. -/
theorem size_le_of_agree {table table' : Reassembler} (h : table.Distinct) (h' : table'.Distinct)
    (hagree : ∀ other, other ≠ id → table'.get? other = table.get? other) :
    table'.size ≤ table.size + 1 := by
  have hsubset : {other | (table'.get? other).isSome} ⊆
      Insert.insert id {other | (table.get? other).isSome} := by
    intro other hother
    by_cases hid : other = id
    · exact .inl hid
    · exact .inr ((congrArg Option.isSome (hagree other hid)).symm.trans hother)
  have hencard : (table'.size : ℕ∞) ≤ table.size + 1 := by
    rw [size_eq_encard h', size_eq_encard h]
    exact (Set.encard_le_encard hsubset).trans (Set.encard_insert_le _ _)
  exact_mod_cast hencard

/-- **A chunk changes the size of a table** by one at most. -/
theorem size_accept (h : table.Distinct) (c : Chunk) :
    (table.accept c).2.size ≤ table.size + 1 ∧ table.size ≤ (table.accept c).2.size + 1 := by
  have hagree : ∀ id, id ≠ c.id → (table.accept c).2.get? id = table.get? id :=
    fun _ hid => get?_accept_of_ne table c hid
  exact ⟨size_le_of_agree h (h.accept c) hagree,
    size_le_of_agree (h.accept c) h fun id hid => (hagree id hid).symm⟩

/-! ### Many chunks -/

/-- **No chunks** make a sound table unsound. -/
theorem Sound.after (h : table.Sound) (cs : List Chunk) : (table.after cs).Sound := by
  induction cs generalizing table with
  | nil          => exact h
  | cons c cs ih => exact ih (h.accept c)

/-- A message that the table holds all the time keeps what it declares. -/
theorem exists_after_of_held (h : table.get? id = some p) {cs : List Chunk}
    (hheld : ∀ ds, ds <+: cs → ((table.after ds).get? id).isSome) :
    ∃ p', (table.after cs).get? id = some p' ∧ p'.declared = p.declared := by
  induction cs generalizing table p with
  | nil => exact ⟨p, h, rfl⟩
  | cons c cs ih =>
      obtain ⟨q, hq⟩ := Option.isSome_iff_exists.mp (hheld [c] (by simp))
      obtain ⟨p', hp', hdeclared⟩ := ih hq fun ds hds => hheld (c :: ds) (by simpa using hds)
      exact ⟨p', hp', hdeclared.trans (declared_accept h hq)⟩

/-- **Every table is sound.**  Of each message that a table holds, whatever chunks it was given,
something has come, at places of the message; fewer fragments than the message has places, so at
least two are declared, and some place has no fragment.  A message that it holds all the time keeps
what it declares.  A chunk changes what is held of its own message alone, and so the size of the
table by one at most. -/
theorem unfinished_after (chunks : List Chunk) :
    let table := empty.after chunks
    (table.Distinct ∧
      ∀ entry ∈ table.pending, entry.2.Unfinished ∧ 2 ≤ entry.2.declared.toNat ∧
        entry.2.isComplete = false ∧
        ∃ n, 1 ≤ n ∧ n ≤ entry.2.declared ∧ ∀ s, (n, s) ∉ entry.2.fragments) ∧
    (∀ id p cs, table.get? id = some p →
      (∀ ds, ds <+: cs → ((table.after ds).get? id).isSome) →
        ∃ p', (table.after cs).get? id = some p' ∧ p'.declared = p.declared) ∧
    ∀ c, (∀ id, id ≠ c.id → (table.accept c).2.get? id = table.get? id) ∧
      (table.accept c).2.size ≤ table.size + 1 ∧ table.size ≤ (table.accept c).2.size + 1 := by
  intro table
  have hsound : table.Sound := sound_empty.after chunks
  refine ⟨⟨hsound.distinct, fun entry hentry => ?_⟩, fun id p cs h => exists_after_of_held h,
    fun c => ⟨fun id => get?_accept_of_ne table c, size_accept hsound.distinct c⟩⟩
  have hunfinished := hsound.unfinished entry hentry
  exact ⟨hunfinished, hunfinished.two_le, hunfinished.isComplete_eq_false,
    hunfinished.exists_missing⟩

/-- The last chunk of three, and the first of two of another message. -/
def begun : List Chunk :=
  [⟨⟨1⟩, ⟨5⟩, .command, 3, 3, "c"⟩, ⟨⟨2⟩, ⟨0⟩, .response, 2, 1, "x"⟩]

/-- What a table holds of the first of these messages. -/
def partway : PendingMessage := ⟨3, ⟨5⟩, .command, [(3, "c")]⟩

/-- A chunk of the other message that is out of range. -/
def stray : Chunk := ⟨⟨2⟩, ⟨0⟩, .response, 2, 9, "y"⟩

/-- More chunks: one that comes again, the stray one, and one that is still missing. -/
def more : List Chunk := [⟨⟨1⟩, ⟨6⟩, .response, 3, 3, "z"⟩, stray, ⟨⟨1⟩, ⟨5⟩, .command, 3, 1, "a"⟩]

/-- Of the first message something is missing all the time; it declares three chunks to the end, and
a stray chunk of the other message leaves it alone. -/
theorem unfinished_after_begun :
    ((⟨1⟩, partway) ∈ (empty.after begun).pending ∧ partway.Unfinished ∧
      ∃ n, 1 ≤ n ∧ n ≤ partway.declared ∧ ∀ s, (n, s) ∉ partway.fragments) ∧
    ((empty.after begun).get? ⟨1⟩ = some partway ∧
      (∀ ds, ds <+: more → (((empty.after begun).after ds).get? ⟨1⟩).isSome) ∧
      ∃ p', ((empty.after begun).after more).get? ⟨1⟩ = some p' ∧ p'.declared = 3) ∧
    ⟨1⟩ ≠ stray.id ∧
      ((empty.after begun).accept stray).2.get? ⟨1⟩ = (empty.after begun).get? ⟨1⟩ := by
  obtain ⟨⟨-, hentries⟩, hkept, hother⟩ := unfinished_after begun
  have hentry : (⟨1⟩, partway) ∈ (empty.after begun).pending := by decide
  have hget : (empty.after begun).get? ⟨1⟩ = some partway := by decide
  have hall : ∀ ds ∈ more.inits, (((empty.after begun).after ds).get? ⟨1⟩).isSome := by decide
  have hheld : ∀ ds, ds <+: more → (((empty.after begun).after ds).get? ⟨1⟩).isSome :=
    fun ds hds => hall ds ((List.mem_inits ds more).mpr hds)
  have hne : (⟨1⟩ : MessageId) ≠ stray.id := by decide
  obtain ⟨hunfinished, -, -, hmissing⟩ := hentries _ hentry
  exact ⟨⟨hentry, hunfinished, hmissing⟩, ⟨hget, hheld, hkept _ _ _ hget hheld⟩,
    hne, (hother stray).1 ⟨1⟩ hne⟩

end Reassembler

end NativeMessaging
