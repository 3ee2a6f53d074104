import RoutePages.Edit.Basic
import RoutePages.Route.Basic
import RoutePages.Text.Blank

/-!
# Removing directives

A directive that has its line to itself goes with the line, and one that shares a
line goes with a comma. Directives with just a comma between them are removed as
one.
-/
namespace RoutePages

namespace Removal

def isGap (c : Char) : Bool := c = ' ' || c = '\t'

def gapLength (s : Text) : Nat := (s.takeWhile isGap).length

/-- Is a text a comma between spaces and tabs? -/
def isComma (s : Text) : Bool := Text.dropEndWhile (s.dropWhile isGap) isGap == ","

/-- The place after the gap that follows a range, and after a comma there with its gap. -/
def afterComma (p : Place) : Bool × Place :=
  let p := p.skip (gapLength p.rest)
  match p.rest with
  | ',' :: rest => (true, p.skip (1 + gapLength rest))
  | _ => (false, p)

/-- Where the line ends, if nothing but a comment is left of it. -/
def lineEnd? (p : Place) : Option Place :=
  if p.at? "//" then some (p.skip (Text.beforeBreak p.rest).length)
  else if p.rest.isEmpty || p.at? "\n" || p.at? "\r\n" then some p
  else none

/-- The place after the characters that end a line. -/
def afterBreak (p : Place) : Place :=
  if p.at? "\r\n" then p.skip 2 else if p.at? "\n" then p.skip 1 else p

/-- The range that goes with the property at `s`, given the text before it. -/
def rangeBetween (before : Text) (s : Span) (after : Place) : Span :=
  let (comma, next) := afterComma after
  let line := before.lastLine
  match line.all Text.isBlank, lineEnd? next with
  | true, some stop => ⟨s.start - line.size, (afterBreak stop).pos⟩
  | _, _ =>
    if comma then ⟨s.start, next.pos⟩
    else
      let kept := Text.trimEnd before
      if kept.getLast? = some ',' then ⟨Text.size kept - 1, s.stop⟩ else s

/-- The range that goes with the property at `s`. -/
def range (source : Text) (s : Span) : Span :=
  rangeBetween ((source.take? s.start).getD []) s ⟨s.stop, (source.drop? s.stop).getD []⟩

/-- Does a text begin with a key, bare or between quotes? -/
def beginsWithKey (found key : Text) : Bool :=
  found.startsWith key || found.startsWith ("'" ++ key ++ "'") ||
    found.startsWith ("\"" ++ key ++ "\"")

/-- The range of a directive, if its key still stands there. -/
def check (source : Text) (d : DirectiveSpan) : Except EditError Span :=
  let found := (source.slice? d.span.start d.span.stop).getD []
  if beginsWithKey found d.directive.key then .ok d.span
  else .error (.noDirective d.directive.key d.span.start found.firstLine)

/-- Joins ranges that have only a comma between them. -/
def joined (source : Text) (current : Span) : List Span → Except EditError (List Span)
  | [] => .ok [current]
  | next :: rest =>
    if next.start < current.stop then .error (.overlap current next)
    else if isComma ((source.slice? current.stop next.start).getD []) then
      joined source ⟨current.start, next.stop⟩ rest
    else (joined source next rest).map (current :: ·)

def groups (source : Text) : List Span → Except EditError (List Span)
  | [] => .ok []
  | first :: rest => joined source first rest

/-- The edits that remove the directives of one entry. -/
def edits (source : Text) (directives : List DirectiveSpan) : Except EditError (List Edit) := do
  let spans ← directives.mapM (check source)
  let together ← groups source (sortBy (fun a b => a.start < b.start) spans)
  return together.map fun s => ⟨range source s, []⟩

end Removal
end RoutePages
