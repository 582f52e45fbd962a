import Mathlib

/-! SHA-256 over the UTF-8 bytes of a text, with its lower-case hexadecimal digest. Words are
naturals below 2 ^ 32, so that a digest can be computed by kernel reduction. -/
namespace Sha256

def word (n : Nat) : Nat := n % 4294967296

def rotateRight (x k : Nat) : Nat := (x >>> k) ||| word (x <<< (32 - k))

def smallSigma0 (x : Nat) : Nat := rotateRight x 7 ^^^ rotateRight x 18 ^^^ (x >>> 3)

def smallSigma1 (x : Nat) : Nat := rotateRight x 17 ^^^ rotateRight x 19 ^^^ (x >>> 10)

def bigSigma0 (x : Nat) : Nat := rotateRight x 2 ^^^ rotateRight x 13 ^^^ rotateRight x 22

def bigSigma1 (x : Nat) : Nat := rotateRight x 6 ^^^ rotateRight x 11 ^^^ rotateRight x 25

def choose (x y z : Nat) : Nat := (x &&& y) ^^^ ((4294967295 ^^^ x) &&& z)

def majority (x y z : Nat) : Nat := (x &&& y) ^^^ (x &&& z) ^^^ (y &&& z)

def roundConstants : List Nat := [
  0x428a2f98, 0x71374491, 0xb5c0fbcf, 0xe9b5dba5, 0x3956c25b, 0x59f111f1, 0x923f82a4, 0xab1c5ed5,
  0xd807aa98, 0x12835b01, 0x243185be, 0x550c7dc3, 0x72be5d74, 0x80deb1fe, 0x9bdc06a7, 0xc19bf174,
  0xe49b69c1, 0xefbe4786, 0x0fc19dc6, 0x240ca1cc, 0x2de92c6f, 0x4a7484aa, 0x5cb0a9dc, 0x76f988da,
  0x983e5152, 0xa831c66d, 0xb00327c8, 0xbf597fc7, 0xc6e00bf3, 0xd5a79147, 0x06ca6351, 0x14292967,
  0x27b70a85, 0x2e1b2138, 0x4d2c6dfc, 0x53380d13, 0x650a7354, 0x766a0abb, 0x81c2c92e, 0x92722c85,
  0xa2bfe8a1, 0xa81a664b, 0xc24b8b70, 0xc76c51a3, 0xd192e819, 0xd6990624, 0xf40e3585, 0x106aa070,
  0x19a4c116, 0x1e376c08, 0x2748774c, 0x34b0bcb5, 0x391c0cb3, 0x4ed8aa4a, 0x5b9cca4f, 0x682e6ff3,
  0x748f82ee, 0x78a5636f, 0x84c87814, 0x8cc70208, 0x90befffa, 0xa4506ceb, 0xbef9a3f7, 0xc67178f2]

structure Registers where
  a : Nat
  b : Nat
  c : Nat
  d : Nat
  e : Nat
  f : Nat
  g : Nat
  h : Nat

def initialRegisters : Registers :=
  ⟨0x6a09e667, 0xbb67ae85, 0x3c6ef372, 0xa54ff53a, 0x510e527f, 0x9b05688c, 0x1f83d9ab, 0x5be0cd19⟩

def schedule : Nat → List Nat → List Nat
  | 0, ws => ws
  | n + 1, ws =>
    schedule n (word (smallSigma1 (ws.getD 1 0) + ws.getD 6 0 + smallSigma0 (ws.getD 14 0) +
      ws.getD 15 0) :: ws)

def round (r : Registers) (k w : Nat) : Registers :=
  let t1 := word (r.h + bigSigma1 r.e + choose r.e r.f r.g + k + w)
  let t2 := word (bigSigma0 r.a + majority r.a r.b r.c)
  ⟨word (t1 + t2), r.a, r.b, r.c, word (r.d + t1), r.e, r.f, r.g⟩

def rounds : Registers → List Nat → List Nat → Registers
  | r, k :: ks, w :: ws => rounds (round r k w) ks ws
  | r, _, _ => r

def compress (r : Registers) (block : List Nat) : Registers :=
  let s := rounds r roundConstants (schedule 48 block.reverse).reverse
  ⟨word (r.a + s.a), word (r.b + s.b), word (r.c + s.c), word (r.d + s.d),
    word (r.e + s.e), word (r.f + s.f), word (r.g + s.g), word (r.h + s.h)⟩

def compressBlocks : Nat → Registers → List Nat → Registers
  | 0, r, _ => r
  | n + 1, r, ws => compressBlocks n (compress r (ws.take 16)) (ws.drop 16)

def bigEndian : Nat → Nat → List Nat
  | 0, _ => []
  | k + 1, n => bigEndian k (n / 256) ++ [n % 256]

def pad (bytes : List Nat) : List Nat :=
  bytes ++ [128] ++ List.replicate ((119 - bytes.length % 64) % 64) 0 ++
    bigEndian 8 (8 * bytes.length)

def words : List Nat → List Nat
  | a :: b :: c :: d :: rest => (a * 16777216 + b * 65536 + c * 256 + d) :: words rest
  | _ => []

def utf8 (c : Char) : List Nat :=
  let n := c.toNat
  if n < 0x80 then [n]
  else if n < 0x800 then [0xC0 + n / 64, 0x80 + n % 64]
  else if n < 0x10000 then [0xE0 + n / 4096, 0x80 + n / 64 % 64, 0x80 + n % 64]
  else [0xF0 + n / 262144, 0x80 + n / 4096 % 64, 0x80 + n / 64 % 64, 0x80 + n % 64]

def hexDigits : List Char := "0123456789abcdef".toList

def hexWord : Nat → Nat → List Char
  | 0, _ => []
  | k + 1, n => hexWord k (n / 16) ++ [hexDigits.getD (n % 16) '0']

@[irreducible] def digestChars (text : List Char) : List Char :=
  let ws := words (pad (text.flatMap utf8))
  let r := compressBlocks (ws.length / 16) initialRegisters ws
  [r.a, r.b, r.c, r.d, r.e, r.f, r.g, r.h].flatMap (hexWord 8)

def hexdigest (text : String) : String := String.ofList (digestChars text.toList)

example : hexdigest "abc" = "ba7816bf8f01cfea414140de5dae2223b00361a396177a9cb410ff61f20015ad" := by
  decide +kernel

theorem hexDigits_getD_mem (n : Nat) : hexDigits.getD n '0' ∈ hexDigits := by
  rcases Nat.lt_or_ge n hexDigits.length with inside | outside
  · rw [List.getD_eq_getElem _ _ inside]
    exact List.getElem_mem inside
  · rw [List.getD_eq_default _ _ outside]
    decide

theorem hexWord_hex (k n : Nat) : ∀ c ∈ hexWord k n, c ∈ hexDigits := by
  induction k generalizing n with
  | zero => simp [hexWord]
  | succ k ih =>
    intro c hc
    rw [hexWord, List.mem_append, List.mem_singleton] at hc
    rcases hc with hc | rfl
    · exact ih (n / 16) c hc
    · exact hexDigits_getD_mem _

theorem hexWord_length (k n : Nat) : (hexWord k n).length = k := by
  induction k generalizing n with
  | zero => rfl
  | succ k ih => simp [hexWord, ih]

@[simp] theorem toList_hexdigest (text : String) :
    (hexdigest text).toList = digestChars text.toList :=
  String.toList_ofList

theorem hexdigest_hex (text : String) : ∀ c ∈ (hexdigest text).toList, c ∈ hexDigits := by
  intro c hc
  rw [toList_hexdigest, digestChars, List.mem_flatMap] at hc
  obtain ⟨w, _, hw⟩ := hc
  exact hexWord_hex 8 w c hw

theorem hexdigest_length (text : String) : (hexdigest text).toList.length = 64 := by
  simp [digestChars, hexWord_length]

end Sha256
