import RoutePages.Order.Sort
import RoutePages.Script.Span
import RoutePages.Text.Quoted

/-!
# Edits

An edit replaces one range of a source. A list of edits is applied at once, each
range counted in the source as it was. The ranges have to lie in the source and
must not overlap.
-/
namespace RoutePages

/-- The bytes of `span` are replaced. -/
structure Edit where
  span : Span
  replacement : Text
  deriving DecidableEq

inductive EditError where
  /-- no quoted component stands where one is to be replaced -/
  | noComponent (offset : Nat) (found : Text)
  /-- no directive of this key stands where one is to be removed -/
  | noDirective (key : Text) (offset : Nat) (found : Text)
  | overlap (first second : Span)
  | outOfBounds (span : Span)
  deriving DecidableEq

/-- A range as shown in messages. -/
def Span.display (s : Span) : Text := Text.ofNat s.start ++ ".." ++ Text.ofNat s.stop

def EditError.message : EditError → Text
  | noComponent offset found =>
    Text.ofNat offset ++ " バイト目に component の文字列リテラルがありません (実際: " ++ found.quoted ++ ")"
  | noDirective key offset found =>
    Text.ofNat offset ++ " バイト目にディレクティブ `" ++ key ++ "` がありません (実際: " ++
      found.quoted ++ ")"
  | overlap first second =>
    "書き換え範囲が重なっています: " ++ first.display ++ " と " ++ second.display
  | outOfBounds span => "書き換え範囲 " ++ span.display ++ " がソースの範囲外です"

namespace Edit

/-- Order of application: by start, and by end where the starts agree. -/
def precedes (a b : Edit) : Bool :=
  a.span.start < b.span.start || (a.span.start == b.span.start && a.span.stop < b.span.stop)

/-- Does the range lie in the source, between characters? -/
def fits (source : Text) (s : Span) : Bool :=
  s.start ≤ s.stop && s.stop ≤ source.size && source.isBoundary s.start && source.isBoundary s.stop

/-- Refuses a range that is not in the source. -/
def checkBounds (source : Text) : List Edit → Except EditError Unit
  | [] => .ok ()
  | e :: rest =>
    if fits source e.span then checkBounds source rest else .error (.outOfBounds e.span)

def checkApart : List Edit → Except EditError Unit
  | a :: b :: rest =>
    if b.span.start < a.span.stop then .error (.overlap a.span b.span) else checkApart (b :: rest)
  | _ => .ok ()

/-- Makes edits in order, on the part of the source from byte `pos` on. -/
def splice (pos : Nat) (s : Text) : List Edit → Text
  | [] => s
  | e :: rest =>
    (s.take? (e.span.start - pos)).getD [] ++ e.replacement ++
      splice e.span.stop ((s.drop? (e.span.stop - pos)).getD []) rest

def applyAll (source : Text) (edits : List Edit) : Except EditError Text := do
  let sorted := sortBy precedes edits
  checkBounds source sorted
  checkApart sorted
  return splice 0 source sorted

end Edit
end RoutePages
