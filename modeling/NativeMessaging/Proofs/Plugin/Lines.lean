import NativeMessaging.Plugin.Running
import NativeMessaging.Proofs.Frame.Stream
import NativeMessaging.Proofs.Plugin.Line

/-!
# Plugin — bytes cut at line feeds

Both sides send lines, and a line feed ends each of them.  What a stream of bytes says is then a
matter of where its line feeds are (`Relay.Cuts`), so a text that has one inside would be two lines:
the printer escapes it, whatever the text is.

* `Relay.exists_cuts`, `Relay.Cuts.unique`: bytes are lines and a tail in exactly one way.
* `Relay.Cuts.lines_eq`: the lines that the host takes from an output, by the cut of the output.
* `Json.Printable.noControl`: no printed value holds a control character.
* `Running.send_stream`: the bytes that the host sends for messages are one line for each of them,
  and the line says which message it is.
-/

namespace NativeMessaging

/-! ### Cutting -/

namespace Relay

/-- Bytes are whole lines, each with its line feed behind it, and a tail without one. -/
structure Cuts (bytes : List UInt8) (whole : List (List UInt8)) (tail : List UInt8) : Prop where
  bytes_eq : bytes = whole.flatMap (· ++ [10]) ++ tail
  whole_unbroken : ∀ line ∈ whole, 10 ∉ line
  tail_unbroken : 10 ∉ tail

namespace Cuts

variable {bytes line rest tail tail' : List UInt8} {whole whole' : List (List UInt8)}

/-- Bytes without a line feed are a tail. -/
theorem of_tail (h : 10 ∉ tail) : Cuts tail [] tail :=
  ⟨rfl, List.forall_mem_nil _, h⟩

/-- A line in front of what is cut already. -/
theorem cons (hline : 10 ∉ line) (h : Cuts rest whole tail) :
    Cuts (line ++ 10 :: rest) (line :: whole) tail where
  bytes_eq := by rw [h.bytes_eq]; simp
  whole_unbroken := List.forall_mem_cons.mpr ⟨hline, h.whole_unbroken⟩
  tail_unbroken := h.tail_unbroken

/-- Lines without line feeds, each with one behind it. -/
theorem of_lines (h : ∀ line ∈ whole, 10 ∉ line) : Cuts (whole.flatMap (· ++ [10])) whole [] :=
  ⟨(List.append_nil _).symm, h, List.not_mem_nil⟩

/-- Bytes that start with a line are that line and the cut of what is behind it. -/
theorem eq_cons (h : Cuts bytes (line :: whole) tail) :
    10 ∉ line ∧ ∃ rest, bytes = line ++ 10 :: rest ∧ Cuts rest whole tail := by
  obtain ⟨hline, hwhole⟩ := List.forall_mem_cons.mp h.whole_unbroken
  refine ⟨hline, _, ?_, rfl, hwhole, h.tail_unbroken⟩
  rw [h.bytes_eq]
  simp

end Cuts

/-- A line feed ends the same line however the bytes are read. -/
theorem line_unique {line line' rest rest' : List UInt8} (h : 10 ∉ line) (h' : 10 ∉ line')
    (heq : line ++ 10 :: rest = line' ++ 10 :: rest') : line = line' ∧ rest = rest' := by
  rcases List.append_eq_append_iff.mp heq with ⟨more, rfl, hrest⟩ | ⟨more, rfl, hrest⟩
  all_goals
    cases more with
    | nil => simp_all
    | cons b more => simp_all

/-- **Bytes are cut in one way only.** -/
theorem Cuts.unique {bytes tail tail' : List UInt8} {whole whole' : List (List UInt8)}
    (h : Cuts bytes whole tail) (h' : Cuts bytes whole' tail') : whole = whole' ∧ tail = tail' := by
  induction whole generalizing bytes whole' with
  | nil =>
      have hbytes : 10 ∉ bytes := h.bytes_eq ▸ h.tail_unbroken
      cases whole' with
      | nil => exact ⟨rfl, h.bytes_eq.symm.trans h'.bytes_eq⟩
      | cons line whole' =>
          obtain ⟨-, rest, rfl, -⟩ := h'.eq_cons
          simp at hbytes
  | cons line whole ih =>
      obtain ⟨hline, rest, rfl, hrest⟩ := h.eq_cons
      cases whole' with
      | nil =>
          have hbytes : 10 ∉ line ++ 10 :: rest := h'.bytes_eq ▸ h'.tail_unbroken
          simp at hbytes
      | cons line' whole' =>
          obtain ⟨hline', rest', heq, hrest'⟩ := h'.eq_cons
          obtain ⟨rfl, rfl⟩ := line_unique hline hline' heq
          obtain ⟨rfl, rfl⟩ := ih hrest hrest'
          exact ⟨rfl, rfl⟩

/-- **All bytes can be cut.** -/
theorem exists_cuts (bytes : List UInt8) : ∃ whole tail, Cuts bytes whole tail := by
  induction bytes with
  | nil => exact ⟨[], [], .of_tail List.not_mem_nil⟩
  | cons b bytes ih =>
      obtain ⟨whole, tail, h⟩ := ih
      by_cases hb : b = 10
      · subst hb
        exact ⟨[] :: whole, tail, h.cons List.not_mem_nil⟩
      · -- the byte belongs to the first line, or to the tail where there is no line
        cases whole with
        | nil =>
            refine ⟨[], b :: tail, ?_⟩
            rw [h.bytes_eq]
            exact .of_tail (by simpa [Ne.symm hb] using h.tail_unbroken)
        | cons line whole =>
            obtain ⟨hline, rest, rfl, hrest⟩ := h.eq_cons
            have hline' : 10 ∉ b :: line := by simpa [Ne.symm hb] using hline
            exact ⟨(b :: line) :: whole, tail, hrest.cons hline'⟩

/-- More bytes go on from the tail. -/
theorem Cuts.append {bytes tail more tail' : List UInt8} {whole whole' : List (List UInt8)}
    (h : Cuts bytes whole tail) (h' : Cuts (tail ++ more) whole' tail') :
    Cuts (bytes ++ more) (whole ++ whole') tail' where
  bytes_eq := by
    rw [h.bytes_eq, List.append_assoc, h'.bytes_eq, List.flatMap_append, List.append_assoc]
  whole_unbroken := List.forall_mem_append.mpr ⟨h.whole_unbroken, h'.whole_unbroken⟩
  tail_unbroken := h'.tail_unbroken

/-! ### The host's cut -/

theorem cutLines_tail (ended : Bool) {tail : List UInt8} (h : 10 ∉ tail) (under : List UInt8) :
    cutLines ended under tail =
      if ended && !(under.reverse ++ tail).isEmpty then [under.reverse ++ tail] else [] := by
  induction tail generalizing under with
  | nil => simp [cutLines]
  | cons b tail ih =>
      obtain ⟨hb, htail⟩ := not_or.mp (mt List.mem_cons.mpr h)
      rw [cutLines, if_neg (Ne.symm hb), ih htail, List.reverse_cons, List.append_assoc,
        List.singleton_append]

theorem cutLines_line (ended : Bool) {line : List UInt8} (h : 10 ∉ line)
    (under rest : List UInt8) :
    cutLines ended under (line ++ 10 :: rest) =
      withoutReturn (under.reverse ++ line) :: cutLines ended [] rest := by
  induction line generalizing under with
  | nil => rw [List.nil_append, cutLines, if_pos rfl, List.append_nil]
  | cons b line ih =>
      obtain ⟨hb, hline⟩ := not_or.mp (mt List.mem_cons.mpr h)
      rw [List.cons_append, cutLines, if_neg (Ne.symm hb), ih hline, List.reverse_cons,
        List.append_assoc, List.singleton_append]

/-- **The lines of an output** are its whole lines, each without the carriage return at its end, and
the tail where nothing can follow it. -/
theorem Cuts.lines_eq {bytes tail : List UInt8} {whole : List (List UInt8)}
    (h : Cuts bytes whole tail) (ended : Bool) :
    lines ended bytes =
      whole.map withoutReturn ++ if ended && !tail.isEmpty then [tail] else [] := by
  induction whole generalizing bytes with
  | nil =>
      rw [h.bytes_eq]
      exact cutLines_tail ended h.tail_unbroken []
  | cons line whole ih =>
      obtain ⟨hline, rest, rfl, hrest⟩ := h.eq_cons
      rw [lines, cutLines_line ended hline, ← lines, ih hrest]
      rfl

end Relay

namespace Running

/-- The first line of bytes, with its line feed. -/
theorem firstLine_line {line : List UInt8} (h : 10 ∉ line) (rest : List UInt8) :
    firstLine (line ++ 10 :: rest) = line ++ [10] := by
  induction line with
  | nil => rfl
  | cons b line ih =>
      obtain ⟨hb, hline⟩ := not_or.mp (mt List.mem_cons.mpr h)
      rw [List.cons_append, firstLine, if_neg (Ne.symm hb), ih hline, List.cons_append]

theorem firstLine_tail {tail : List UInt8} (h : 10 ∉ tail) : firstLine tail = tail := by
  induction tail with
  | nil => rfl
  | cons b tail ih =>
      obtain ⟨hb, htail⟩ := not_or.mp (mt List.mem_cons.mpr h)
      rw [firstLine, if_neg (Ne.symm hb), ih htail]

end Running

/-! ### Texts without line feeds -/

namespace Text.Utf8

/-- Only the line feed has its byte: the bytes of a longer character are all above 127. -/
theorem eq_of_mem_utf8EncodeChar {c : Char} (h : 10 ∈ String.utf8EncodeChar c) : c = '\n' := by
  have hval : c.val.toNat = c.toNat := rfl
  have hnat : c.toNat = 10 := by
    rw [String.utf8EncodeChar] at h
    repeat' split at h
    all_goals
      simp only [List.mem_cons, List.not_mem_nil, or_false, ← UInt8.toNat_inj,
        UInt8.toNat_ofNat', UInt8.reduceToNat] at h
      omega
  exact Char.toNat_inj.mp hnat

/-- The bytes of a text without a line feed have none. -/
theorem not_mem_encode {s : String} (h : '\n' ∉ s.toList) : 10 ∉ encode s := by
  rw [encode_eq, List.mem_flatMap]
  rintro ⟨c, hc, hbyte⟩
  exact h (eq_of_mem_utf8EncodeChar hbyte ▸ hc)

end Text.Utf8

namespace Json

/-- Characters of which none is a control character. -/
def NoControl (cs : List Char) : Prop := ∀ c ∈ cs, ¬ c < ' '

namespace NoControl

theorem append {cs ds : List Char} (hcs : NoControl cs) (hds : NoControl ds) :
    NoControl (cs ++ ds) := List.forall_mem_append.mpr ⟨hcs, hds⟩

theorem cons {c : Char} {cs : List Char} (hc : ¬ c < ' ') (hcs : NoControl cs) :
    NoControl (c :: cs) := List.forall_mem_cons.mpr ⟨hc, hcs⟩

theorem nil : NoControl [] := List.forall_mem_nil _

theorem flatMap {α : Type} {f : α → List Char} {as : List α} (h : ∀ a ∈ as, NoControl (f a)) :
    NoControl (as.flatMap f) := fun c hc => by
  obtain ⟨a, ha, hc⟩ := List.mem_flatMap.mp hc
  exact h a ha c hc

instance (cs : List Char) : Decidable (NoControl cs) :=
  List.decidableBAll (fun c : Char => ¬ c < ' ') cs

theorem not_mem {cs : List Char} (h : NoControl cs) : '\n' ∉ cs := fun hc => h _ hc (by decide)

end NoControl

theorem noControl_hexDigit : ∀ n, n < 16 → ¬ hexDigit n < ' ' := by decide

/-- A character is escaped by characters that are no control characters. -/
theorem noControl_escape (c : Char) : NoControl (escape c) := by
  unfold escape
  by_cases hshort : c ∈ ['"', '\\', '\x08', '\t', '\n', '\x0c', '\r']
  · simp only [List.mem_cons, List.not_mem_nil, or_false] at hshort
    rcases hshort with rfl | rfl | rfl | rfl | rfl | rfl | rfl <;> decide
  · simp only [List.mem_cons, List.not_mem_nil, or_false, not_or] at hshort
    obtain ⟨h₁, h₂, h₃, h₄, h₅, h₆, h₇⟩ := hshort
    rw [if_neg h₁, if_neg h₂, if_neg h₃, if_neg h₄, if_neg h₅, if_neg h₆, if_neg h₇]
    by_cases hcontrol : c < ' '
    · have hc : c.toNat < 32 := hcontrol
      have hhigh : ¬ hexDigit (c.toNat / 16) < ' ' := noControl_hexDigit _ (by omega)
      have hlow : ¬ hexDigit (c.toNat % 16) < ' ' := noControl_hexDigit _ (by omega)
      rw [if_pos hcontrol]
      exact .append (by decide : NoControl ['\\', 'u', '0', '0']) (.cons hhigh (.cons hlow .nil))
    · rw [if_neg hcontrol]
      exact .cons hcontrol .nil

theorem noControl_quote (s : String) : NoControl (quote s) :=
  .cons (by decide) (.append (.flatMap fun c _ => noControl_escape c) (by decide))

theorem noControl_natText (n : Nat) : NoControl (Decimal.natText n) := fun c hc => by
  have hdigit : c.isDigit = true := Nat.isDigit_of_mem_toDigits (by decide) (by decide) hc
  rw [Char.isDigit, Bool.and_eq_true, decide_eq_true_eq] at hdigit
  exact UInt32.not_lt.mpr (UInt32.le_trans (by decide) hdigit.1)

theorem noControl_memberText {m : String × Json} (h : NoControl (text m.2)) :
    NoControl (memberText m) := .append (noControl_quote m.1) (.cons (by decide) h)

/-- **No printed value holds a control character**, so none holds a line feed. -/
theorem Printable.noControl {depth : Nat} {v : Json} (h : Printable depth v) :
    NoControl (text v) := by
  induction h with
  | null => decide
  | bool b => cases b <;> decide
  | @natural depth n hn => exact noControl_natText n
  | string s => exact noControl_quote s
  | @array depth items _ ih =>
      rw [text]
      refine .cons (by decide) (.append ?_ (by decide))
      cases items with
      | nil => exact .nil
      | cons v vs =>
          rw [itemsText_cons]
          exact .append (ih v (List.mem_cons_self ..))
            (.flatMap fun w hw => .cons (by decide) (ih w (List.mem_cons_of_mem _ hw)))
  | @object depth members _ ih =>
      rw [text]
      refine .cons (by decide) (.append ?_ (by decide))
      cases members with
      | nil => exact .nil
      | cons m ms =>
          rw [membersText_cons]
          exact .append (noControl_memberText (ih m (List.mem_cons_self ..)))
            (.flatMap fun w hw =>
              .cons (by decide) (noControl_memberText (ih w (List.mem_cons_of_mem _ hw))))

end Json

/-! ### The lines of the host -/

namespace HostMessage

/-- A message is a record of its kind with plain members behind it. -/
theorem exists_recordMembers (m : HostMessage) :
    ∃ name ms, m.toJson = .object (Json.recordMembers name ms) ∧ Json.ArePlain ms := by
  cases m with
  | init version => exact ⟨"init", _, rfl, Line.arePlain_initMembers version⟩
  | command colony id text => exact ⟨"cmd", _, rfl, Line.arePlain_callMembers colony id text⟩
  | response colony id text => exact ⟨"resp", _, rfl, Line.arePlain_callMembers colony id text⟩
  | shutdown => exact ⟨"shutdown", _, rfl, List.forall_mem_nil _⟩

theorem noControl_print (m : HostMessage) : Json.NoControl m.print.toList := by
  obtain ⟨name, ms, hjson, hms⟩ := m.exists_recordMembers
  have hprintable : Json.Printable Json.maxDepth (.object (Json.recordMembers name ms)) :=
    .object (List.forall_mem_cons.mpr ⟨.string name, fun w hw => (hms w hw).2⟩)
  rw [print, hjson, Json.print, String.toList_ofList]
  exact hprintable.noControl

/-- The text of a message has no line feed, so its bytes have none. -/
theorem not_mem_encode_print (m : HostMessage) : 10 ∉ Text.Utf8.encode m.print :=
  Text.Utf8.not_mem_encode m.noControl_print.not_mem

theorem isAllBlank_print (m : HostMessage) : Text.isAllBlank m.print = false := by
  obtain ⟨name, ms, hjson, -⟩ := m.exists_recordMembers
  rw [Text.isAllBlank, print, hjson, Json.print, String.toList_ofList, Json.text, List.all_cons]
  rfl

end HostMessage

namespace Line

/-- A line says one message and nothing else: it is text and not blank, the text spells the message,
and sent back it is the same call where the message is a call, and no message at all where it is
none. -/
structure Carries (line : List UInt8) (m : HostMessage) : Prop where
  spells : ∃ text, Text.Utf8.decode line = .ok text ∧ Text.isAllBlank text = false ∧
    HostMessage.decode text = .ok m ∧
    (∀ m', m.echo = some m' → PluginMessage.decode text = .ok m') ∧
    (m.echo = none → ∀ m', PluginMessage.decode text ≠ .ok m')

/-- **The line of a message carries that message.** -/
theorem carries_print (m : HostMessage) : Carries (Text.Utf8.encode m.print) m where
  spells := by
    refine ⟨m.print, Text.Utf8.decode_encode _, m.isAllBlank_print, m.decode_print,
      fun m' => HostMessage.decode_of_echo, fun hecho m' hm' => ?_⟩
    obtain ⟨e, he⟩ := HostMessage.exists_decode_of_echo hecho
    rw [he] at hm'
    cases hm'

end Line

namespace Running

/-! ### Sending messages one after another -/

/-- What is sent reaches a process that has not shut down and holds its input: it becomes input, and
nothing else changes. -/
theorem send_eq_ok_iff {plugin plugin' : Running} {m : HostMessage} :
    plugin.send m = .ok plugin' ↔ plugin.connected = true ∧
      plugin.process.behaviour.holdsInput = true ∧ plugin' = { plugin with
        process := { plugin.process with given := plugin.process.given ++ lineOf m } } := by
  rw [send, Subprocess.give]
  cases plugin.connected with
  | false => simp
  | true =>
      cases plugin.process.behaviour.holdsInput with
      | false => simp
      | true => simp [eq_comm]

theorem eq_of_send {plugin plugin' : Running} {m : HostMessage} (h : plugin.send m = .ok plugin') :
    plugin' = { plugin with
      process := { plugin.process with given := plugin.process.given ++ lineOf m } } :=
  (send_eq_ok_iff.mp h).2.2

/-- Nothing reaches a process that was killed. -/
theorem killed_of_send {plugin plugin' : Running} {m : HostMessage}
    (h : plugin.send m = .ok plugin') : plugin.process.killed = false := by
  by_contra hkilled
  have hholds := (send_eq_ok_iff.mp h).2.1
  rw [Subprocess.behaviour, if_pos (Bool.of_not_eq_false hkilled)] at hholds
  cases hholds

/-- The process has not shut down and holds its input, whatever else it is given. -/
structure Listens (plugin : Running) : Prop where
  connected : plugin.connected = true
  alive : plugin.process.killed = false
  holdsInput : ∀ more, (plugin.process.program (plugin.process.given ++ more)
    plugin.process.ended).holdsInput = true

/-- What such a process is sent reaches it. -/
theorem Listens.exists_send {plugin : Running} (h : plugin.Listens) (m : HostMessage) :
    ∃ plugin' : Running, plugin.send m = .ok plugin' ∧ plugin'.Listens := by
  have hholds : plugin.process.behaviour.holdsInput = true := by
    have := h.holdsInput []
    rw [List.append_nil] at this
    simp only [Subprocess.behaviour, h.alive]
    exact this
  refine ⟨_, send_eq_ok_iff.mpr ⟨h.connected, hholds, rfl⟩, h.connected, h.alive, fun more => ?_⟩
  dsimp only
  rw [List.append_assoc]
  exact h.holdsInput _

/-- What messages that are sent add to the input of the process. -/
theorem given_of_sends {ms : List HostMessage} {plugin plugin' : Running}
    (h : ms.foldlM send plugin = .ok plugin') :
    plugin'.process.given = plugin.process.given ++ ms.flatMap lineOf := by
  induction ms generalizing plugin with
  | nil =>
      obtain rfl := Except.ok.inj h
      exact (List.append_nil _).symm
  | cons m ms ih =>
      rw [List.foldlM_cons] at h
      cases hsend : plugin.send m with
      | error e => rw [hsend] at h; cases h
      | ok next =>
          rw [hsend] at h
          rw [ih h, eq_of_send hsend, List.flatMap_cons, List.append_assoc]

theorem Listens.exists_sends {plugin : Running} (h : plugin.Listens) (ms : List HostMessage) :
    ∃ plugin', ms.foldlM send plugin = .ok plugin' := by
  induction ms generalizing plugin with
  | nil => exact ⟨plugin, rfl⟩
  | cons m ms ih =>
      obtain ⟨next, hsend, hnext⟩ := h.exists_send m
      rw [List.foldlM_cons, hsend]
      exact ih hnext

/-- The lines of messages, as the host sends them. -/
theorem flatMap_lineOf (ms : List HostMessage) :
    ms.flatMap lineOf = (ms.map fun m => Text.Utf8.encode m.print).flatMap (· ++ [10]) := by
  rw [List.flatMap_map]
  rfl

/-- **The lines of the host say which messages it sent.**  What reaches a process that listens is a
stream of bytes that is cut at its line feeds in one way only: into one line for each message, which
carries that message, and nothing behind the last of them. -/
theorem send_stream (ms : List HostMessage) :
    (∀ plugin plugin', ms.foldlM send plugin = .ok plugin' →
      plugin'.process.given = plugin.process.given ++ ms.flatMap lineOf) ∧
    (∀ plugin : Running, plugin.Listens → ∃ plugin', ms.foldlM send plugin = .ok plugin') ∧
    ∃ stream, (∀ whole tail, Relay.Cuts (ms.flatMap lineOf) whole tail ↔
        whole = stream ∧ tail = []) ∧
      List.Forall₂ Line.Carries stream ms := by
  refine ⟨fun _ _ => given_of_sends, fun plugin h => h.exists_sends ms,
    ms.map fun m => Text.Utf8.encode m.print, fun whole tail => ?_, ?_⟩
  · have hcuts : Relay.Cuts (ms.flatMap lineOf) (ms.map fun m => Text.Utf8.encode m.print) [] := by
      rw [flatMap_lineOf]
      refine .of_lines fun line hline => ?_
      obtain ⟨m, -, rfl⟩ := List.mem_map.mp hline
      exact m.not_mem_encode_print
    constructor
    · exact fun h => h.unique hcuts
    · rintro ⟨rfl, rfl⟩
      exact hcuts
  · rw [List.forall₂_map_left_iff, List.forall₂_same]
    exact fun m _ => Line.carries_print m

/-- A process that takes all that it is given and writes nothing. -/
def silent : Running := ⟨"silent", .start fun _ _ => ⟨[], true, true⟩, true, 0, .greeting⟩

/-- Messages with line breaks, quotes and the line of another message in their texts. -/
def nestedMessages : List HostMessage :=
  [.init protocolVersion, .command ⟨7⟩ ⟨1⟩ "a\r\n\"b\\", .shutdown,
    .response ⟨7⟩ ⟨1⟩ ("\n" ++ HostMessage.shutdown.print ++ "\n")]

/-- They reach the process as four lines. -/
theorem send_stream_nested :
    silent.Listens ∧ ∃ plugin', nestedMessages.foldlM send silent = .ok plugin' ∧
      ∃ stream, (∀ whole tail, Relay.Cuts plugin'.process.given whole tail ↔
          whole = stream ∧ tail = []) ∧
        stream.length = 4 ∧ List.Forall₂ Line.Carries stream nestedMessages := by
  have hlistens : silent.Listens := ⟨rfl, rfl, fun _ => rfl⟩
  obtain ⟨hgiven, hsends, stream, hcuts, hcarries⟩ := send_stream nestedMessages
  obtain ⟨plugin', hplugin'⟩ := hsends silent hlistens
  refine ⟨hlistens, plugin', hplugin', stream, fun whole tail => ?_, hcarries.length_eq, hcarries⟩
  rw [hgiven _ _ hplugin']
  exact hcuts whole tail

end Running

end NativeMessaging
