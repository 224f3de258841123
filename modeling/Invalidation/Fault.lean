import Invalidation.Json.Basic
import Invalidation.Json.Display
import Invalidation.Text.Digits

namespace Invalidation

-- Why an identifier is refused.
inductive IdentifierProblem where
  | classRequired
  | classHasDelimiter
  | blankInstance
  | invalid (role : Text)
deriving DecidableEq

def IdentifierProblem.reason : IdentifierProblem → Text
  | .classRequired => "metadata class required"
  | .classHasDelimiter => "metadata class cannot contain '#'"
  | .blankInstance => "instance key cannot be blank"
  | .invalid role => role ++ " identifier is an invalid metadata identification string"

-- The kinds of setting values.
inductive SettingKind where
  | int
  | bool
  | str
deriving Repr, DecidableEq

def SettingKind.name : SettingKind → String
  | .int => "int"
  | .bool => "bool"
  | .str => "str"

-- Why a configuration is refused.
inductive ConfigProblem where
  | negativeMaxDepth (n : Json)
  | negativeTrace (n : Json)
  | negativeTraceSetting (n : Int)
  | smallJournal (n : Int)
  | unknownLevel (level : Text)
  | nullSetting (group key : String)
  | truthForInt (group key : String) (b : Bool)
  | wrongKind (group key : String) (kind : SettingKind) (value : Json)
  | invalidFile (path : Text)
deriving Inhabited

def cutAt (sep : List Nat) : List Nat → List Nat
  | [] => []
  | c :: cs => if sep.isPrefixOf (c :: cs) then [] else c :: cutAt sep cs

def ConfigProblem.message : ConfigProblem → Text
  | .negativeMaxDepth n => Text.ofString "max_depth must be >= 0 (got " ++ n.display ++ ")"
  | .negativeTrace n => Text.ofString "Trace level must be >= 0 (got " ++ n.display ++ ")"
  | .negativeTraceSetting n => s!"trace_level must be >= 0 (got {n})"
  | .smallJournal n => s!"notification_log_size must be >= 1 (got {n})"
  | .unknownLevel level => Text.ofString "Unknown log level: " ++ level
  | .nullSetting group key => group ++ "." ++ key ++ " cannot be null"
  | .truthForInt group key b =>
    Text.ofString (group ++ "." ++ key ++ " must be an integer (got ") ++ (Json.bool b).literal ++ ")"
  | .wrongKind group key kind value =>
    Text.ofString (group ++ "." ++ key ++ " must be " ++ kind.name ++ " (got ") ++ value.literal ++ ")"
  | .invalidFile path => ⟨cutAt (Text.ofString ": ").codes (Text.ofString "Invalid JSON in " ++ path).codes⟩

def listing : List String → String
  | [] => ""
  | [a] => s!"'{a}'"
  | [a, b] => s!"'{a}' and '{b}'"
  | names =>
    let last := names.getLastD ""
    ", ".intercalate (names.dropLast.map fun n => s!"'{n}'") ++ s!", and '{last}'"

def hex4 (c : Nat) : String :=
  let ds := Nat.toDigits 16 c
  String.ofList (List.replicate (4 - ds.length) '0' ++ ds)

-- Faults of the host runtime that the registry's callers can run into.
inductive HostFault where
  | notIterable (kind : String)
  | notAnIterable (kind : String)
  | noAttribute (kind attr : String)
  | unhashable (kind : String)
  | badIntText (text : Text)
  | intTextTooLong (digits : Nat)
  | infinityToInt
  | nanToInt
  | intTooLarge
  | notReal (kind : String)
  | badFloatText (text : Text)
  | tooDeep
  | isDirectory (path : Text)
  | nameTooLong (path : Text)
  | fileExists (path : Text)
  | notADirectory (path : Text)
  | noSuchFile (path : Text)
  | textIndex
  | arrayIndex
  | negativeCapacity
  | capacityTooLarge
  | integerRequired
  | notSubscriptable (kind : String)
  | missingKey (key : Text)
  | cannotUnpack (kind : String)
  | tooFewToUnpack (expected got : Nat)
  | tooManyToUnpack (expected : Nat)
  | notAPairSequence (index : Nat)
  | notAPair (index length : Nat)
  | unordered (op left right : String)
  | badOperands (op left right : String)
  | sequenceByFloat
  | sliceIndex
  | unknownPhase (value : Json)
  | missingArguments (fn : String) (names : List String)
  | tooManyArguments (fn : String) (least most given : Nat)
  | notSpreadable (fn kind : String)
  | textExpected (kind : String)
  | writeNotText (kind : String)
  | notAPath (kind : String)
  | cannotEncode (text : Text) (start stop : Nat)
  | embeddedNull
  | illegalVariableName
  | invalidArgument
deriving Inhabited

def HostFault.kind : HostFault → String
  | .notIterable _ | .notAnIterable _ | .unhashable _ | .textIndex | .arrayIndex
  | .integerRequired | .unordered _ _ _ | .badOperands _ _ _ | .sequenceByFloat
  | .notSubscriptable _ | .cannotUnpack _ | .notAPairSequence _
  | .notReal _ | .sliceIndex | .missingArguments _ _ | .tooManyArguments _ _ _ _
  | .notSpreadable _ _ | .textExpected _ | .writeNotText _ | .notAPath _ => "TypeError"
  | .noAttribute _ _ => "AttributeError"
  | .badIntText _ | .intTextTooLong _ | .nanToInt | .negativeCapacity | .unknownPhase _
  | .badFloatText _ | .embeddedNull | .illegalVariableName | .tooFewToUnpack _ _
  | .tooManyToUnpack _ | .notAPair _ _ => "ValueError"
  | .missingKey _ => "KeyError"
  | .cannotEncode _ _ _ => "UnicodeEncodeError"
  | .infinityToInt | .intTooLarge | .capacityTooLarge => "OverflowError"
  | .tooDeep => "RecursionError"
  | .isDirectory _ => "IsADirectoryError"
  | .fileExists _ => "FileExistsError"
  | .notADirectory _ => "NotADirectoryError"
  | .noSuchFile _ => "FileNotFoundError"
  | .nameTooLong _ | .invalidArgument => "OSError"

def HostFault.message : HostFault → Text
  | .notIterable kind => s!"argument of type '{kind}' is not iterable"
  | .notAnIterable kind => s!"'{kind}' object is not iterable"
  | .noAttribute kind attr => s!"'{kind}' object has no attribute '{attr}'"
  | .unhashable kind => s!"unhashable type: '{kind}'"
  | .badIntText text =>
    Text.ofString "invalid literal for int() with base 10: " ++ ⟨text.quote.codes.take 200⟩
  | .intTextTooLong digits =>
    s!"Exceeds the limit ({Text.maxIntDigits} digits) for integer string conversion: " ++
      s!"value has {digits} digits; use sys.set_int_max_str_digits() to increase the limit"
  | .infinityToInt => "cannot convert float infinity to integer"
  | .nanToInt => "cannot convert float NaN to integer"
  | .intTooLarge => "int too large to convert to float"
  | .notReal kind => s!"float() argument must be a string or a real number, not '{kind}'"
  | .badFloatText text => Text.ofString "could not convert string to float: " ++ text.quote
  | .tooDeep => "maximum recursion depth exceeded"
  | .isDirectory path => Text.ofString "[Errno 21] Is a directory: " ++ path.quote
  | .nameTooLong path => Text.ofString "[Errno 36] File name too long: " ++ path.quote
  | .fileExists path => Text.ofString "[Errno 17] File exists: " ++ path.quote
  | .notADirectory path => Text.ofString "[Errno 20] Not a directory: " ++ path.quote
  | .noSuchFile path => Text.ofString "[Errno 2] No such file or directory: " ++ path.quote
  | .textIndex => "string indices must be integers, not 'str'"
  | .arrayIndex => "list indices must be integers or slices, not str"
  | .negativeCapacity => "maxlen must be non-negative"
  | .capacityTooLarge => "Python int too large to convert to C ssize_t"
  | .integerRequired => "an integer is required"
  | .notSubscriptable kind => s!"'{kind}' object is not subscriptable"
  | .missingKey key => key.quote
  | .cannotUnpack kind => s!"cannot unpack non-iterable {kind} object"
  | .tooFewToUnpack expected got => s!"not enough values to unpack (expected {expected}, got {got})"
  | .tooManyToUnpack expected => s!"too many values to unpack (expected {expected})"
  | .notAPairSequence index =>
    s!"cannot convert dictionary update sequence element #{index} to a sequence"
  | .notAPair index length =>
    s!"dictionary update sequence element #{index} has length {length}; 2 is required"
  | .unordered op left right =>
    s!"'{op}' not supported between instances of '{left}' and '{right}'"
  | .badOperands op left right => s!"unsupported operand type(s) for {op}: '{left}' and '{right}'"
  | .sequenceByFloat => "can't multiply sequence by non-int of type 'float'"
  | .sliceIndex => "slice indices must be integers or None or have an __index__ method"
  | .unknownPhase value => value.literal ++ " is not a valid DispatchPhase"
  | .missingArguments fn names =>
    let s := if names.length = 1 then "" else "s"
    s!"{fn}() missing {names.length} required positional argument{s}: " ++ listing names
  | .tooManyArguments fn least most given =>
    let range := if least = most then toString most else s!"from {least} to {most}"
    let s := if least = most ∧ most = 1 then "" else "s"
    let verb := if given = 1 then "was" else "were"
    s!"{fn}() takes {range} positional argument{s} but {given} {verb} given"
  | .notSpreadable fn kind => s!"{fn}() argument after * must be an iterable, not {kind}"
  | .textExpected kind => s!"str expected, not {kind}"
  | .writeNotText kind => s!"write() argument must be str, not {kind}"
  | .notAPath kind => s!"expected str, bytes or os.PathLike object, not {kind}"
  | .cannotEncode text start stop =>
    let place := if stop = start + 1 then
        "character '\\u" ++ hex4 (text.codes.getD start 0) ++ s!"' in position {start}"
      else s!"characters in position {start}-{stop - 1}"
    "'utf-8' codec can't encode " ++ place ++ ": surrogates not allowed"
  | .embeddedNull => "embedded null byte"
  | .illegalVariableName => "illegal environment variable name"
  | .invalidArgument => "[Errno 22] Invalid argument"

-- Why a request cannot be carried out; each names the value it could not use.
inductive RequestProblem where
  | unknownOp (op : Json)
  | unknownFunction (fn : Json)
  | unknownScheme (scheme : Json)
  | unknownListener (name : Json)
  | noJournal
  | unreadable
deriving Inhabited

def RequestProblem.message : RequestProblem → Text
  | .unknownOp op => Text.ofString "unknown op " ++ op.literal
  | .unknownFunction fn => Text.ofString "unknown fn " ++ fn.literal
  | .unknownScheme scheme => Text.ofString "unknown scheme " ++ scheme.literal
  | .unknownListener name => Text.ofString "unknown listener " ++ name.literal
  | .noJournal => "registry has no notification log"
  | .unreadable => "malformed request"

-- One failed check of a report: where, and which check.
structure ReportProblem where
  place : String
  check : String

inductive Fault where
  | invalidIdentifier (value : Json) (problem : IdentifierProblem)
  | selfDependency (id : Text)
  | cyclicDependency (u d : Text) (cycle : List Text)
  | listenerRequired
  | duplicatePrimary (registered rejected : Json)
  | depthExceeded (changed : Text) (maxDepth : Json)
  | configuration (problem : ConfigProblem)
  | listenerFailure (message : Text)
  | invalidReport (problems : List ReportProblem)
  | host (fault : HostFault)
  | badRequest (problem : RequestProblem)
deriving Inhabited

namespace Fault

def kind : Fault → String
  | .invalidIdentifier _ _ => "InvalidIdentifierError"
  | .selfDependency _ => "SelfDependencyError"
  | .cyclicDependency _ _ _ => "CyclicDependencyError"
  | .listenerRequired | .duplicatePrimary _ _ => "ListenerConfigurationError"
  | .depthExceeded _ _ => "NotificationDepthExceededError"
  | .configuration _ => "ConfigurationError"
  | .listenerFailure _ => "ListenerFailure"
  | .invalidReport _ => "ValidationError"
  | .host f => f.kind
  | .badRequest _ => "DriverError"

def classification : Fault → Option (Nat × String)
  | .invalidIdentifier _ _ => some (1001, "identifier")
  | .selfDependency _ => some (2002, "dependency")
  | .cyclicDependency _ _ _ => some (2003, "dependency")
  | .listenerRequired => some (3001, "listener")
  | .duplicatePrimary _ _ => some (3002, "listener")
  | .depthExceeded _ _ => some (4001, "notification")
  | .configuration _ => some (5001, "configuration")
  | _ => none

def isRegistryFault (f : Fault) : Bool := f.classification.isSome

def message : Fault → Text
  | .invalidIdentifier v p => p.reason ++ " ('" ++ v.display ++ "')"
  | .selfDependency id =>
    Text.ofString "Upstream dependency cannot be the same as the downstream dependency ('" ++ id ++
      "')"
  | .cyclicDependency _ _ cycle =>
    Text.ofString "Cyclic dependency detected: " ++ Text.intercalate " -> " cycle
  | .listenerRequired => "Metadata notification listener required"
  | .duplicatePrimary registered rejected =>
    Text.ofString "Cannot register more than one primary consumer ('" ++ registered.display ++
      "' already registered, rejected '" ++ rejected.display ++ "')"
  | .depthExceeded u m =>
    Text.ofString "Notification depth " ++ m.display ++ " exceeded while notifying downstream of '" ++
      u ++ "'"
  | .configuration p => p.message
  | .listenerFailure m => m
  | .invalidReport ps => Text.intercalate "; " (ps.map fun p => Text.ofString (p.place ++ ": " ++ p.check))
  | .host f => f.message
  | .badRequest p => p.message

def details : Fault → List (Text × Json)
  | .selfDependency id => [("upstream", .str id), ("downstream", .str id)]
  | .cyclicDependency u d cycle =>
    [("upstream", .str u), ("downstream", .str d), ("cycle", .arr (cycle.map .str))]
  | .depthExceeded u m => [("upstream", .str u), ("max_depth", m)]
  | _ => []

def toJson (f : Fault) : Json :=
  let head : List (Text × Json) := [("error", .str f.kind), ("message", .str f.message)]
  let codes : List (Text × Json) := match f.classification with
    | some (code, category) => [("code", .int code), ("category", .str category)]
    | none => []
  .obj (head ++ codes ++ f.details)

end Fault

end Invalidation
