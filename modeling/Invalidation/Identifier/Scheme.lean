import Invalidation.Identifier.Basic
import Invalidation.Fault

namespace Invalidation

inductive Scheme where
  | standard
  | slash
deriving Repr, DecidableEq, Inhabited

namespace Scheme

def isValid : Scheme → Json → Bool
  | .standard, .str s => Identifier.isValid s
  | .slash, .str s => !Text.isBlankText s
  | _, _ => false

def separator : Scheme → Nat
  | .standard => Identifier.delimiter
  | .slash => 0x2F

def isClassLevel (sc : Scheme) (s : Text) : Bool := !s.contains sc.separator

def classOf : Scheme → Text → Text
  | .standard, s => Identifier.classOf s
  | .slash, s => ⟨s.codes.takeWhile (· ≠ 0x2F)⟩

def componentOf (sc : Scheme) (s : Text) : Text :=
  if sc.isClassLevel s then s else sc.classOf s

def requireValid (sc : Scheme) (v : Json) (role : Text) : Except Fault Text :=
  match v with
  | .str s => if sc.isValid v then .ok s else .error (.invalidIdentifier v (.invalid role))
  | _ => .error (.invalidIdentifier v (.invalid role))

end Scheme

end Invalidation
