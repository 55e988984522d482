import PklAnalysis.Text.Split
import PklAnalysis.Text.Word

/-!
# Versions

A version is three numbers. What follows a `-` or a `+` tells builds of one version apart and is not
part of it.
-/

namespace PklAnalysis

structure Version where
  major : UInt32
  minor : UInt32
  patch : UInt32
  deriving DecidableEq, Repr, Inhabited

namespace Version

/-- The number that digits write, if it has at most 32 bits. -/
def number? (cs : List Char) : Option UInt32 :=
  if cs.isEmpty || !cs.all Char.isDigit then none
  else
    let n := cs.foldl (fun n c => 10 * n + (c.toNat - '0'.toNat)) 0
    if n < UInt32.size then some (UInt32.ofNat n) else none

/-- Read a version: numbers between dots, as far as the first `-` or `+`. -/
def ofText? (cs : List Char) : Option Version :=
  match (Text.split '.' (cs.takeWhile fun c => c != '-' && c != '+')).map number? with
  | [some major, some minor, some patch] => some ⟨major, minor, patch⟩
  | _ => none

def text (v : Version) : String :=
  toString v.major.toNat ++ "." ++ toString v.minor.toNat ++ "." ++ toString v.patch.toNat

/-- Versions are ordered by their numbers, the first of them first. -/
def order (v w : Version) : Ordering :=
  (compare v.major.toNat w.major.toNat).then
    ((compare v.minor.toNat w.minor.toNat).then (compare v.patch.toNat w.patch.toNat))

end Version

end PklAnalysis
