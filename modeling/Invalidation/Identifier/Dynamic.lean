import Invalidation.Identifier.Scheme
import Invalidation.Json.Access

namespace Invalidation.Identifier

inductive Function where
  | isValid
  | isClassLevel
  | className
  | instanceKey
  | create
  | classOf
  | schemeIsValid
  | schemeIsClassLevel
  | schemeClassOf
  | componentOf
  | requireValid
deriving Repr, DecidableEq

def Function.ofName? : String → Option Function
  | "is_valid" => some .isValid
  | "is_class_level" => some .isClassLevel
  | "get_metadata_class" => some .className
  | "get_metadata_instance" => some .instanceKey
  | "create" => some .create
  | "class_of" => some .classOf
  | "scheme_is_valid" => some .schemeIsValid
  | "scheme_is_class_level" => some .schemeIsClassLevel
  | "scheme_class_of" => some .schemeClassOf
  | "component_of" => some .componentOf
  | "require_valid" => some .requireValid
  | _ => none

def create (cls : Json) (inst : Json) : Except Fault Text := do
  unless cls.isTruthy do throw (.invalidIdentifier cls .classRequired)
  let c ← Json.textFor "strip" cls
  if Text.isBlankText c then throw (.invalidIdentifier cls .classRequired)
  if c.contains delimiter then throw (.invalidIdentifier cls .classHasDelimiter)
  match inst with
  | .null => pure (mark ++ c)
  | _ =>
    let i ← Json.textFor "strip" inst
    if Text.isBlankText i then throw (.invalidIdentifier inst .blankInstance)
    pure (mark ++ c ++ Text.single delimiter ++ i)

def isClassLevelIn (sc : Scheme) (v : Json) : Except Fault Bool := do
  pure !(← Json.memberOf (Text.single sc.separator) v)

def classIn (sc : Scheme) (v : Json) : Except Fault Json := do
  match sc with
  | .standard =>
    if ← isClassLevelIn sc v then pure v
    else pure (.str (Identifier.classOf (← Json.textFor "split" v)))
  | .slash => pure (.str (sc.classOf (← Json.textFor "split" v)))

-- How a function is called: its name as the runtime gives it, its parameters, how many of them are
-- required, and whether it is a method, whose receiver counts among its positional arguments.
structure Signature where
  name : String
  params : List String
  required : Nat
  method : Bool

def Function.signature : Function → Signature
  | .isValid => ⟨"is_valid", ["metadata_id"], 1, false⟩
  | .isClassLevel => ⟨"is_class_level", ["metadata_id"], 1, false⟩
  | .className => ⟨"get_metadata_class", ["metadata_id"], 1, false⟩
  | .instanceKey => ⟨"get_metadata_instance", ["metadata_id"], 1, false⟩
  | .create => ⟨"create", ["metadata_class", "instance"], 1, false⟩
  | .classOf => ⟨"class_of", ["metadata_id"], 1, false⟩
  | .schemeIsValid => ⟨"IdentifierScheme.is_valid", ["metadata_id"], 1, true⟩
  | .schemeIsClassLevel => ⟨"IdentifierScheme.is_class_level", ["metadata_id"], 1, true⟩
  | .schemeClassOf => ⟨"IdentifierScheme.class_of", ["metadata_id"], 1, true⟩
  | .componentOf => ⟨"IdentifierScheme.component_of", ["metadata_id"], 1, true⟩
  | .requireValid => ⟨"IdentifierScheme.require_valid", ["metadata_id", "role"], 1, true⟩

def Signature.qualified (s : Signature) : String := "metadep.identifiers." ++ s.name

def Signature.check (s : Signature) (given : Nat) : Except Fault Unit :=
  let receiver := if s.method then 1 else 0
  if s.params.length < given then
    .error (.host (.tooManyArguments s.name (s.required + receiver) (s.params.length + receiver)
      (given + receiver)))
  else if given < s.required then
    .error (.host (.missingArguments s.name ((s.params.take s.required).drop given)))
  else .ok ()

def Function.apply (sc : Scheme) (f : Function) (v : Json) (second : Option Json) :
    Except Fault Json :=
  match f with
  | .isValid => .ok (.bool (Scheme.standard.isValid v))
  | .isClassLevel => .bool <$> isClassLevelIn .standard v
  | .className => (fun s => .str (Identifier.className s)) <$> Json.textFor "startswith" v
  | .instanceKey => do
    if ← isClassLevelIn .standard v then pure .null
    else pure (Json.ofOption (instanceKey? (← Json.textFor "split" v)))
  | .create => .str <$> Identifier.create v (second.getD .null)
  | .classOf => classIn .standard v
  | .schemeIsValid => .ok (.bool (sc.isValid v))
  | .schemeIsClassLevel => .bool <$> isClassLevelIn sc v
  | .schemeClassOf => classIn sc v
  | .componentOf => do
    if ← isClassLevelIn sc v then pure v else classIn sc v
  | .requireValid => .str <$> sc.requireValid v ((second.map Json.display).getD "metadata")

def Function.call (sc : Scheme) (f : Function) (args : List Json) : Except Fault Json := do
  f.signature.check args.length
  f.apply sc (args.headD .null) (args.drop 1).head?

example : (Function.isValid.call .standard []).toOption = none ∧
    (Function.create.call .standard [.str "a", .str "b", .null]).toOption = none := by
  decide +kernel

end Invalidation.Identifier
