namespace Sheetsmith.Text

/-- What the first byte of a character of several bytes announces. -/
structure Utf8Lead where
  /-- How many bytes follow. -/
  following : Nat
  /-- The least value of the next byte. -/
  low : Nat
  /-- The greatest value of the next byte. -/
  high : Nat
  /-- The bits of the code point in the first byte. -/
  bits : Nat

/-- The announcement of a first byte above ASCII. The range of the next byte leaves out characters
that have a shorter form, surrogates, and what is beyond the last code point. -/
def utf8Lead? (byte : Nat) : Option Utf8Lead :=
  if 0xC2 ≤ byte ∧ byte ≤ 0xDF then some ⟨1, 0x80, 0xBF, byte - 0xC0⟩
  else if byte = 0xE0 then some ⟨2, 0xA0, 0xBF, 0⟩
  else if byte = 0xED then some ⟨2, 0x80, 0x9F, 0xD⟩
  else if 0xE1 ≤ byte ∧ byte ≤ 0xEF then some ⟨2, 0x80, 0xBF, byte - 0xE0⟩
  else if byte = 0xF0 then some ⟨3, 0x90, 0xBF, 0⟩
  else if 0xF1 ≤ byte ∧ byte ≤ 0xF3 then some ⟨3, 0x80, 0xBF, byte - 0xF0⟩
  else if byte = 0xF4 then some ⟨3, 0x80, 0x8F, 4⟩
  else none

/-- Takes the bytes that follow a first byte. The code point is missing when one does not fit; the
remaining bytes then start with it. -/
def utf8Tail : (following low high bits : Nat) → List UInt8 → Option Nat × List UInt8
  | 0, _, _, bits, bytes => (some bits, bytes)
  | _ + 1, _, _, _, [] => (none, [])
  | n + 1, low, high, bits, byte :: bytes =>
    if low ≤ byte.toNat ∧ byte.toNat ≤ high then
      utf8Tail n 0x80 0xBF (64 * bits + (byte.toNat - 0x80)) bytes
    else (none, byte :: bytes)

theorem length_utf8Tail_le (n low high bits : Nat) (bytes : List UInt8) :
    (utf8Tail n low high bits bytes).2.length ≤ bytes.length := by
  induction n generalizing low high bits bytes with
  | zero => simp [utf8Tail]
  | succ n ih =>
    cases bytes with
    | nil => simp [utf8Tail]
    | cons byte bytes =>
      rw [utf8Tail]
      split
      · exact Nat.le_succ_of_le (ih ..)
      · exact Nat.le_refl _

/-- The characters of a row of bytes, `none` for each fault. A sequence that breaks off or is not
allowed is one fault, as long as the bytes so far could have started a character; reading goes on at
the first byte that does not fit. -/
def decodeUtf8 (bytes : List UInt8) : List (Option Char) :=
  match bytes with
  | [] => []
  | byte :: rest =>
    if byte.toNat < 0x80 then some (Char.ofNat byte.toNat) :: decodeUtf8 rest
    else
      match utf8Lead? byte.toNat with
      | none => none :: decodeUtf8 rest
      | some lead =>
        let tail := utf8Tail lead.following lead.low lead.high lead.bits rest
        tail.1.map Char.ofNat :: decodeUtf8 tail.2
termination_by bytes.length
decreasing_by
  all_goals simp_wf
  have := length_utf8Tail_le lead.following lead.low lead.high lead.bits rest
  omega

/-- The text of a row of bytes, with a replacement character for each fault. -/
def ofUtf8Lossy (bytes : List UInt8) : String :=
  String.ofList ((decodeUtf8 bytes).map (·.getD '\ufffd'))

/-- The text of a row of bytes without faults. -/
def ofUtf8? (bytes : List UInt8) : Option String :=
  ((decodeUtf8 bytes).mapM id).map String.ofList

/-- The bytes of a text. -/
def toUtf8 (s : String) : List UInt8 :=
  s.toUTF8.toList

end Sheetsmith.Text
