/-! Reading of byte strings as text. A well-formed byte string is the text it encodes; in any other
each longest ill-formed piece is replaced by one replacement character. -/

namespace ScriptBridge.Text

/-- Byte strings are equal when they hold the same bytes. -/
instance bytesDecidableEq : DecidableEq ByteArray := fun a b =>
  if h : a.data = b.data then isTrue (ByteArray.ext h) else isFalse fun e => h (e ▸ rfl)

def replacement : Char := '\uFFFD'

/-- Length of the sequence a first byte announces, and the bounds its second byte must keep. -/
def sequenceShape (first : UInt8) : Option (Nat × UInt8 × UInt8) :=
  if first < 0x80 then some (1, 0, 0)
  else if 0xC2 ≤ first ∧ first ≤ 0xDF then some (2, 0x80, 0xBF)
  else if first = 0xE0 then some (3, 0xA0, 0xBF)
  else if first = 0xED then some (3, 0x80, 0x9F)
  else if 0xE1 ≤ first ∧ first ≤ 0xEF then some (3, 0x80, 0xBF)
  else if first = 0xF0 then some (4, 0x90, 0xBF)
  else if 0xF1 ≤ first ∧ first ≤ 0xF3 then some (4, 0x80, 0xBF)
  else if first = 0xF4 then some (4, 0x80, 0x8F)
  else none

/-- How many of the next bytes continue a sequence that still wants `wanted` of them. -/
def countContinuing (low high : UInt8) : Nat → List UInt8 → Nat
  | wanted + 1, byte :: rest =>
    if low ≤ byte ∧ byte ≤ high then countContinuing 0x80 0xBF wanted rest + 1 else 0
  | _, _ => 0

/-- The code point of a complete sequence. -/
def codePoint (sequence : List UInt8) : Nat :=
  match sequence with
  | [] => 0
  | [first] => first.toNat
  | first :: rest =>
    rest.foldl (fun value byte => 64 * value + byte.toNat % 64) (first.toNat % Nat.pow 2 (6 - rest.length))

/-- Reads any bytes, replacing what is ill-formed. -/
def decodeReplacing (bytes : List UInt8) : List Char :=
  match bytes with
  | [] => []
  | first :: rest =>
    match sequenceShape first with
    | none => replacement :: decodeReplacing rest
    | some (length, low, high) =>
      let present := countContinuing low high (length - 1) rest
      let decoded := if present + 1 = length then Char.ofNat (codePoint (first :: rest.take present))
        else replacement
      decoded :: decodeReplacing (rest.drop present)
termination_by bytes.length
decreasing_by all_goals simp only [List.length_cons, List.length_drop]; omega

/-- The text of a byte string. -/
def ofBytes (bytes : ByteArray) : String :=
  match String.fromUTF8? bytes with
  | some text => text
  | none => String.ofList (decodeReplacing bytes.toList)

theorem fromUTF8?_toUTF8 (text : String) : String.fromUTF8? text.toUTF8 = some text := by
  simp only [String.fromUTF8?, String.toUTF8_eq_toByteArray, dif_pos text.isValidUTF8]
  rfl

theorem ofBytes_toUTF8 (text : String) : ofBytes text.toUTF8 = text := by
  rw [ofBytes, fromUTF8?_toUTF8]

end ScriptBridge.Text
