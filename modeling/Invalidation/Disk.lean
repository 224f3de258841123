import Invalidation.Fault
import Invalidation.Text.Encoding

namespace Invalidation.Disk

def slash : Nat := 0x2F

def nameMax : Nat := 255

def pathMax : Nat := 4096

def splitCodes (sep : Nat) : List Nat → List (List Nat)
  | [] => [[]]
  | c :: cs =>
    match splitCodes sep cs with
    | part :: parts => if c = sep then [] :: part :: parts else (c :: part) :: parts
    | [] => [[c]]

def pathParts (p : Text) : List Text :=
  ((splitCodes slash p.codes).map Text.mk).filter fun part => !part.isEmpty && part != "."

def pathRoot (p : Text) : Text :=
  match p.codes with
  | 0x2F :: 0x2F :: 0x2F :: _ => "/"
  | 0x2F :: 0x2F :: _ => "//"
  | 0x2F :: _ => "/"
  | _ => Text.empty

def pathText (p : Text) : Text :=
  let parts := pathParts p
  if parts.isEmpty && (pathRoot p).isEmpty then "." else pathRoot p ++ Text.intercalate "/" parts

def partsText (parts : List Text) : Text :=
  if parts.isEmpty then "." else Text.intercalate "/" parts

def codeBytes (c : Nat) : Nat :=
  if Text.isEscapable c then 1
  else if c < 0x80 then 1 else if c < 0x800 then 2 else if c < 0x10000 then 3 else 4

def bytes (t : Text) : Nat := t.codes.foldr (fun c n => codeBytes c + n) 0

def accept (path : Text) : Except HostFault Unit :=
  match Text.unencodable? true path with
  | some (a, b) => .error (.cannotEncode path a b)
  | none => if path.contains 0 then .error .embeddedNull else .ok ()

def parentName : Text := Text.ofString ".."

abbrev Place := List Text

def up (p : Place) : Place :=
  if p.all (· == parentName) then p ++ [parentName] else p.dropLast

inductive Entry where
  | directory
  | file (text : Text)

-- The entries made in a folder and above it, each at its own place.
structure Folder where
  entries : List (Place × Entry)

def Folder.empty : Folder := ⟨[]⟩

def Folder.entry? (f : Folder) (p : Place) : Option Entry :=
  if p.all (· == parentName) then some .directory else (f.entries.find? (·.1 == p)).map (·.2)

def Folder.put (f : Folder) (p : Place) (e : Entry) : Folder :=
  ⟨(p, e) :: f.entries.filter (·.1 != p)⟩

-- Where a walk along a path has got to.
inductive Spot where
  | directory (place : Place)
  | file (place : Place) (text : Text)
  | outside
  | missing
  | notDirectory
  | tooLong

def Folder.step (f : Folder) : Spot → Text → Spot
  | .directory p, name =>
    if name == parentName then .directory (up p)
    else if nameMax < bytes name then .tooLong
    else
      match f.entry? (p ++ [name]) with
      | some .directory => .directory (p ++ [name])
      | some (.file t) => .file (p ++ [name]) t
      | none => .missing
  | .outside, name =>
    if name == parentName then .outside else if nameMax < bytes name then .tooLong else .missing
  | .file _ _, _ => .notDirectory
  | s, _ => s

def Folder.walk (f : Folder) (parts : List Text) : Spot := parts.foldl f.step (.directory [])

def Folder.locate (f : Folder) (path : Text) : Except HostFault Spot := do
  accept (pathText path)
  if pathMax ≤ bytes (pathText path) then return .tooLong
  let start := if (pathRoot path).isEmpty then Spot.directory [] else .outside
  return (pathParts path).foldl f.step start

def Folder.isPresent (f : Folder) (path : Text) : Except HostFault Bool :=
  match f.locate path with
  | .error _ => .ok false
  | .ok .tooLong => .error (.nameTooLong (pathText path))
  | .ok .missing | .ok .notDirectory => .ok false
  | .ok _ => .ok true

def Folder.read (f : Folder) (path : Text) : Except HostFault Text := do
  match ← f.locate path with
  | .file _ t => pure t
  | .directory _ | .outside => throw (.isDirectory (pathText path))
  | .missing => throw (.noSuchFile (pathText path))
  | .notDirectory => throw (.notADirectory (pathText path))
  | .tooLong => throw (.nameTooLong (pathText path))

-- One attempt at making the directory `last` in the directory whose parts from the folder are
-- `above`, in reverse order; an existing directory is kept. Gives the folder after it, or none when
-- the directory above is missing.
def Folder.makeDir (f : Folder) (above : List Text) (last : Text) :
    Except HostFault (Option Folder) := do
  let path := partsText (above.reverse ++ [last])
  accept path
  if pathMax ≤ bytes path then throw (.nameTooLong path)
  match f.walk above.reverse with
  | .missing => pure none
  | .tooLong => throw (.nameTooLong path)
  | .notDirectory | .file _ _ => throw (.notADirectory path)
  | .outside => pure (some f)
  | .directory p =>
    if last == parentName then pure (some f)
    else if nameMax < bytes last then throw (.nameTooLong path)
    else
      match f.entry? (p ++ [last]) with
      | some .directory => pure (some f)
      | some (.file _) => throw (.fileExists path)
      | none => pure (some (f.put (p ++ [last]) .directory))

def Folder.makeDirs (f : Folder) : List Text → Except HostFault Folder
  | [] => pure f
  | last :: above => do
    match ← f.makeDir above last with
    | some g => pure g
    | none =>
      let g ← f.makeDirs above
      match ← g.makeDir above last with
      | some h => pure h
      | none => throw (.noSuchFile (partsText (above.reverse ++ [last])))

def Folder.create (f : Folder) (name : Text) : Except HostFault (Folder × Option Place) := do
  if !(pathRoot name).isEmpty then
    accept (pathText name)
    return (f, none)
  let parts := pathParts name
  let f ← match parts.reverse with
    | [] => pure f
    | _ :: above => f.makeDirs above
  let path := partsText parts
  accept path
  if pathMax ≤ bytes path then throw (.nameTooLong path)
  match parts.reverse with
  | [] => throw (.isDirectory path)
  | last :: above =>
    match f.walk above.reverse with
    | .missing => throw (.noSuchFile path)
    | .tooLong => throw (.nameTooLong path)
    | .notDirectory | .file _ _ => throw (.notADirectory path)
    | .outside => pure (f, none)
    | .directory p =>
      if last == parentName then throw (.isDirectory path)
      else if nameMax < bytes last then throw (.nameTooLong path)
      else
        match f.entry? (p ++ [last]) with
        | some .directory => throw (.isDirectory path)
        | _ => pure (f, some (p ++ [last]))

def Folder.store (f : Folder) : Option Place → Text → Folder
  | some p, t => f.put p (.file t)
  | none, _ => f

example : (do
    let (f, p) ← Folder.empty.create "a/b/../../config/metadep.json"
    pure ((f.store p "{}").walk ["config", "metadep.json"] matches .file _ _)).toOption =
    some true := by decide

end Invalidation.Disk
