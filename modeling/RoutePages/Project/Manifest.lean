import RoutePages.Json.Value

/-!
# Project manifests

Two optional strings of a JSON object: where the routes are and where the
templates are. Other fields are passed over. A list of the two is read as well.
-/
namespace RoutePages

open Json

structure Manifest where
  routes : Option Text
  template : Option Text
  deriving DecidableEq

namespace Manifest

def empty : Manifest := ⟨none, none⟩

/-- The manifest as messages name it. -/
def label : Text := "struct PackageManifest"

/-- The elements of a list, behind its opening bracket. -/
def atElement (first : Bool) (s : Text) : Except Json.Error (Option Text) :=
  match skipBlanks s with
  | [] => .error .endInList
  | c :: rest =>
    if c = ']' then .ok none
    else if first then .ok (some (c :: rest))
    else if c != ',' then .error .noListSeparator
    else match skipBlanks rest with
      | [] => .error .endInValue
      | d :: rest => if d = ']' then .error .trailingComma else .ok (some (d :: rest))

/-- A list ends behind its last element. -/
def endList (s : Text) : Except Json.Error Text :=
  match skipBlanks s with
  | [] => .error .endInList
  | c :: rest =>
    if c = ']' then .ok rest
    else if c != ',' then .error .trailingCharacters
    else match skipBlanks rest with
      | d :: _ => .error (if d = ']' then .trailingComma else .trailingCharacters)
      | [] => .error .trailingCharacters

def readElement (index : Nat) (s : Text) : Except Json.Error (Option Text × Text) := do
  match ← atElement (index = 0) s with
  | none => throw (.badLength index (label ++ " with 2 elements"))
  | some s => readOptionalString s

def readList (s : Text) : Except Json.Error (Manifest × Text) := do
  let (routes, s) ← readElement 0 s
  let (template, s) ← readElement 1 s
  return (⟨routes, template⟩, ← endList s)

/-- The place of the next key, behind its opening quote, or the rest behind the object. -/
inductive AtKey where
  | key (rest : Text)
  | closed (rest : Text)

def atKey (first : Bool) (s : Text) : Except Json.Error AtKey :=
  match skipBlanks s with
  | [] => .error .endInObject
  | c :: rest =>
    if c = '\x7d' then .ok (.closed rest)
    else if first then
      if c = '"' then .ok (.key rest) else .error .keyNotString
    else if c != ',' then .error .noObjectSeparator
    else match skipBlanks rest with
      | [] => .error .endInValue
      | d :: rest =>
        if d = '"' then .ok (.key rest)
        else if d = '\x7d' then .error .trailingComma
        else .error .keyNotString

def skipColon (s : Text) : Except Json.Error Text :=
  match skipBlanks s with
  | [] => .error .endInObject
  | c :: s => if c = ':' then .ok s else .error .noColon

/-- What has been read of an object: each field once at most, perhaps as `null`. -/
structure Fields where
  routes : Option (Option Text)
  template : Option (Option Text)

def readField (f : Fields) (key s : Text) : Except Json.Error (Fields × Text) := do
  if key == "routes" then
    if f.routes.isSome then throw (.duplicateField key)
    let (value, s) ← readOptionalString (← skipColon s)
    return ({ f with routes := some value }, s)
  else if key == "template" then
    if f.template.isSome then throw (.duplicateField key)
    let (value, s) ← readOptionalString (← skipColon s)
    return ({ f with template := some value }, s)
  else
    return (f, ← skipValue (← skipColon s))

def readFields : (fuel : Nat) → (first : Bool) → Fields → Text → Except Json.Error (Manifest × Text)
  | 0, _, _, _ => .error .endInObject
  | fuel + 1, first, f, s => do
    match ← atKey first s with
    | .closed rest => return (⟨f.routes.join, f.template.join⟩, rest)
    | .key s =>
      let (key, s) ← readString s
      let (f, s) ← readField f key s
      readFields fuel false f s

/-- Reads the text of a manifest. -/
def read (text : Text) : Except Json.Error Manifest := do
  let (manifest, rest) ← match skipBlanks text with
    | [] => throw .endInValue
    | c :: s =>
      if c = '[' then readList s
      else if c = '\x7b' then readFields (s.length + 1) true ⟨none, none⟩ s
      else throw (refuse label (c :: s))
  if (skipBlanks rest).isEmpty then return manifest else throw .trailingCharacters

end Manifest
end RoutePages
