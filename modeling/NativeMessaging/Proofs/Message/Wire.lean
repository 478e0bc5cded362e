import NativeMessaging.Proofs.Message.Ack
import NativeMessaging.Proofs.Plugin.Line
import NativeMessaging.Settings.LogLevel

/-!
# Message — every record survives its text

Acks, the lines of both sides, ids, directions and levels of logging each have a writer and a
reader.  What is written reads back, so reading a text and writing what it says changes its spelling
only.

* `Json.decode_choice_print`, `Json.decode_uint32_print`: a word from a list, and a number of 32
  bits.
* `Wire.Survives`: what a writer and a reader owe to each other.
* `Wire.survives`: all of these records have it; `Wire.survives_rewritten` has texts in other
  spellings.
-/

namespace NativeMessaging

namespace Json

/-- A word from a list of choices reads back as its choice. -/
theorem decode_choice_print {α : Type} {choices : List (String × α)} {name : String} {a : α}
    (h : choices.lookup name = some a) :
    readAll (fun _ => Decoder.choice choices) (Json.string name).print = .ok a := by
  have hread := Ack.choice_quote h []
  rw [List.append_nil] at hread
  rw [readAll, print, String.toList_ofList, text]
  simp only [hread, bind, Except.bind]
  rfl

/-- What starts like a number is read as one. -/
theorem Decoder.uint32_digit {c : Char} {cs rest : List Char} {n : Nat} (hc : c.isDigit = true)
    (hread : Token.number false (c :: cs) = .ok (.natural n, rest)) (hn : n < UInt32.size) :
    Decoder.uint32 (c :: cs) = .ok (UInt32.ofNat n, rest) := by
  have hspace : Token.skipSpace (c :: cs) = c :: cs :=
    Token.skipSpace_cons (Token.isSpace_of_isDigit hc) cs
  have hminus : c ≠ '-' := by rintro rfl; exact absurd hc (by decide)
  rw [Decoder.uint32, hspace]
  split
  next h => exact absurd (List.cons.inj h).1 hminus
  next h =>
    obtain ⟨rfl, rfl⟩ := List.cons.inj h
    simp only [if_pos hc, hread, if_pos hn, bind, Except.bind]
  next h => cases h

/-- A number of 32 bits reads back. -/
theorem decode_uint32_print (n : UInt32) :
    readAll (fun _ => Decoder.uint32) (ofUInt32 n).print = .ok n := by
  have hnumber : Token.number false (Decimal.natText n.toNat) = .ok (.natural n.toNat, []) := by
    have h := Token.number_natText (Nat.lt_trans n.toNat_lt (by decide)) stops_nil
    rwa [List.append_nil] at h
  have hread : Decoder.uint32 (Decimal.natText n.toNat) = .ok (n, []) := by
    obtain ⟨d, ds, htext, hdigit, -, -⟩ := Token.exists_natText n.toNat
    rw [htext] at hnumber ⊢
    rw [Decoder.uint32_digit hdigit hnumber n.toNat_lt, UInt32.ofNat_toNat]
  rw [readAll, print, String.toList_ofList, ofUInt32, text, Number.text]
  simp only [hread, bind, Except.bind]
  rfl

end Json

theorem ColonyId.decode_print (c : ColonyId) : decode c.print = .ok c := by
  rw [decode, print, Json.decode_uint32_print]
  rfl

theorem MessageId.decode_print (i : MessageId) : decode i.print = .ok i := by
  rw [decode, print, Json.decode_uint32_print]
  rfl

theorem Direction.decode_print (d : Direction) : decode d.print = .ok d :=
  Json.decode_choice_print (by cases d <;> rfl)

theorem LogLevel.decode_print (level : LogLevel) : decode level.print = .ok level :=
  Json.decode_choice_print (by cases level <;> rfl)

namespace Wire

/-- A writer and a reader agree: the text of a value spells that value, and what any other text
spells, written anew, still spells it. -/
structure Survives {α : Type} (print : α → String) (decode : String → Except Json.Error α) :
    Prop where
  written : ∀ v, decode (print v) = .ok v
  rewritten : ∀ s v, decode s = .ok v → decode (print v) = .ok v

theorem Survives.of_written {α : Type} {print : α → String}
    {decode : String → Except Json.Error α} (h : ∀ v, decode (print v) = .ok v) :
    Survives print decode :=
  ⟨h, fun _ v _ => h v⟩

/-- **Every record survives its text.** -/
theorem survives :
    Survives Ack.print Ack.decode ∧ Survives HostMessage.print HostMessage.decode ∧
      Survives PluginMessage.print PluginMessage.decode ∧
      Survives ColonyId.print ColonyId.decode ∧ Survives MessageId.print MessageId.decode ∧
      Survives Direction.print Direction.decode ∧ Survives LogLevel.print LogLevel.decode :=
  ⟨.of_written Ack.decode_print, .of_written HostMessage.decode_print,
    .of_written PluginMessage.decode_print, .of_written ColonyId.decode_print,
    .of_written MessageId.decode_print, .of_written Direction.decode_print,
    .of_written LogLevel.decode_print⟩

/-- A call of a plugin in another spelling: the kind last, an unknown member, and no colony. -/
def reorderedCall : String :=
  "\x7b\"msg\":\"\\u0068i\", \"more\":[1,\x7b\x7d], \"cmdId\":4, \"type\":\"cmd\"\x7d"

/-- A call of the host as an array. -/
def arrayCall : String := "[\"resp\", 7, 4, \"a\\nb\"]"

/-- An ack whose status is an object, with an unknown member. -/
def reorderedAck : String :=
  "\x7b\"message\":null, \"id\":1, \"status\":\x7b\"error\":null\x7d\x7d"

/-- Each of these texts is accepted, is not what is written for its value, and survives. -/
theorem survives_rewritten :
    (PluginMessage.decode reorderedCall = .ok (.command .topLevel ⟨4⟩ "hi") ∧
      (PluginMessage.command .topLevel ⟨4⟩ "hi").print ≠ reorderedCall ∧
      PluginMessage.decode (PluginMessage.command .topLevel ⟨4⟩ "hi").print =
        .ok (.command .topLevel ⟨4⟩ "hi")) ∧
    (HostMessage.decode arrayCall = .ok (.response ⟨7⟩ ⟨4⟩ "a\nb") ∧
      (HostMessage.response ⟨7⟩ ⟨4⟩ "a\nb").print ≠ arrayCall ∧
      HostMessage.decode (HostMessage.response ⟨7⟩ ⟨4⟩ "a\nb").print =
        .ok (.response ⟨7⟩ ⟨4⟩ "a\nb")) ∧
    Ack.decode reorderedAck = .ok ⟨.error, none, none⟩ ∧
      Ack.print ⟨.error, none, none⟩ ≠ reorderedAck ∧
      Ack.decode (Ack.print ⟨.error, none, none⟩) = .ok ⟨.error, none, none⟩ := by
  have hcall : PluginMessage.decode reorderedCall = .ok (.command .topLevel ⟨4⟩ "hi") := by
    decide +kernel
  have hitems : HostMessage.decode arrayCall = .ok (.response ⟨7⟩ ⟨4⟩ "a\nb") := by
    decide +kernel
  have hack : Ack.decode reorderedAck = .ok ⟨.error, none, none⟩ := by decide +kernel
  obtain ⟨ack, host, plugin, -⟩ := survives
  exact ⟨⟨hcall, by decide +kernel, plugin.rewritten _ _ hcall⟩,
    ⟨hitems, by decide +kernel, host.rewritten _ _ hitems⟩,
    hack, by decide +kernel, ack.rewritten _ _ hack⟩

end Wire

end NativeMessaging
