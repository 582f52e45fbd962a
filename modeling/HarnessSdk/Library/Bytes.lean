import Mathlib

/-! Texts read off their UTF-8 bytes. A proof by computation reads them much faster so than through
the decoder that `toList` runs. -/
namespace PyText

/-- Decodes a list of bytes; `pending` bytes of the character begun with `code` are still to come. -/
def decodeBytes : Nat → Nat → List Nat → List Char
  | _, _, [] => []
  | 0, _, byte :: rest =>
    if byte < 128 then Char.ofNat byte :: decodeBytes 0 0 rest
    else if byte < 224 then decodeBytes 1 (byte - 192) rest
    else if byte < 240 then decodeBytes 2 (byte - 224) rest
    else decodeBytes 3 (byte - 240) rest
  | 1, code, byte :: rest =>
    Char.ofNat (code * 64 + (byte - 128)) :: decodeBytes 0 0 rest
  | pending + 2, code, byte :: rest => decodeBytes (pending + 1) (code * 64 + (byte - 128)) rest

/-- The characters of a text: what its bytes decode to, where they are the bytes of that. -/
def chars (s : String) : List Char :=
  let bytes := s.toByteArray.data.toList.map UInt8.toNat
  let decoded := decodeBytes 0 0 bytes
  if (decoded.flatMap String.utf8EncodeChar).map UInt8.toNat = bytes then decoded else s.toList

theorem chars_eq (s : String) : chars s = s.toList := by
  unfold chars
  dsimp only
  split
  · next same =>
    have bytes := List.map_injective_iff.mpr (fun _ _ => UInt8.toNat_inj.mp) same
    have whole : String.ofList (decodeBytes 0 0 (s.toByteArray.data.toList.map UInt8.toNat)) =
        s := by
      rw [← String.toByteArray_inj, String.toByteArray_ofList, List.utf8Encode, bytes]
      apply ByteArray.ext
      rw [List.data_toByteArray]
    rw [← String.toList_ofList (l := decodeBytes _ _ _), whole]
  · rfl

theorem length_eq_chars : String.length = fun s => (chars s).length :=
  funext fun s => by rw [chars_eq, String.length_toList]

end PyText
