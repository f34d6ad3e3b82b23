import Hermes.Lib.Texte

/-! # Versions

The rank of a version is read leniently: what is not a number counts as zero. The digits and the
integers are those of the interpreter, letters outside ASCII included.
-/

namespace Hermes.Maj

open Lib

structure Interprete where
  isdigit : Char → Bool
  /-- `int(texte)`, when it does not raise. -/
  int : String → Option Nat

def rang (i : Interprete) (texte : String) : Nat × Nat × Nat :=
  let morceaux := ((Texte.strip texte).toList.splitOn '.').take 3
  let nombres := morceaux.map fun morceau =>
    (i.int (String.ofList (morceau.filter i.isdigit))).getD 0
  (nombres.getD 0 0, nombres.getD 1 0, nombres.getD 2 0)

end Hermes.Maj
