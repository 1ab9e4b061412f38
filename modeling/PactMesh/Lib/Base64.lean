import Mathlib.Data.Nat.Notation

/-!
# Base64

The standard alphabet with padding; only the end may be padded.
-/

namespace PactMesh

namespace Base64

def alphabet : List Char := "ABCDEFGHIJKLMNOPQRSTUVWXYZabcdefghijklmnopqrstuvwxyz0123456789+/".toList

/-- The character for six bits. -/
def toChar (n : ℕ) : Char := alphabet.getD n '='

/-- The six bits that a character stands for; padding stands for zeros. -/
def value (c : Char) : Option ℕ := if c = '=' then some 0 else alphabet.idxOf? c

/-- Three bytes in groups of six bits. -/
def sextets (a b c : UInt8) : List ℕ :=
  [a.toNat / 4, a.toNat % 4 * 16 + b.toNat / 16, b.toNat % 16 * 4 + c.toNat / 64, c.toNat % 64]

def encode : List UInt8 → List Char
  | [] => []
  | [a] => ((sextets a 0 0).take 2).map toChar ++ ['=', '=']
  | [a, b] => ((sextets a b 0).take 3).map toChar ++ ['=']
  | a :: b :: c :: rest => (sextets a b c).map toChar ++ encode rest

/-- The bytes, if only the end is padded and the bits that fall away are zero. -/
def decode : List Char → Option (List UInt8)
  | [] => some []
  | w :: x :: y :: z :: rest => do
    let bytes := octets (← value w) (← value x) (← value y) (← value z)
    let kept := if z ≠ '=' then 3 else if y ≠ '=' then 2 else 1
    if kept = 3 then return bytes ++ (← decode rest)
    else if rest = [] ∧ ∀ b ∈ bytes.drop kept, b = 0 then some (bytes.take kept) else none
  | _ => none
where
  /-- Four groups of six bits as bytes. -/
  octets (w x y z : ℕ) : List UInt8 :=
    [.ofNat (w * 4 + x / 16), .ofNat (x % 16 * 16 + y / 4), .ofNat (y % 4 * 64 + z)]

end Base64

end PactMesh
