import RoutePages.Project.Config

/-!
# Command lines

An option is written `--name value`, `--name=value`, `-n value` or `-nvalue`, and
short switches may share a dash. Behind `--` everything is an operand. Each option
is given once at most. The first word that is wrong ends the reading, and so does
an asking for help or for the version.
-/
namespace RoutePages.Command

inductive Effect where
  /-- takes a value, which may have to hold something -/
  | value (nonempty : Bool)
  | switch
  | version
  | help
  deriving DecidableEq

structure Flag where
  long : Text
  short : Option Char
  effect : Effect
  deriving DecidableEq

structure Usage where
  flags : List Flag
  /-- how many operands it takes -/
  operands : Nat
  /-- the commands below it -/
  commands : List Text

/-- Why a command line is not carried out. -/
inductive Stop where
  | misuse
  | version
  | help
  deriving DecidableEq

/-- What has been given, switches with an empty value. -/
structure Given where
  values : List (Text × Text)
  operands : List Text

namespace Given

def none : Given := ⟨[], []⟩

def value? (g : Given) (long : Text) : Option Text := g.values.lookup long

def has (g : Given) (long : Text) : Bool := (g.value? long).isSome

def set (g : Given) (f : Flag) (value : Text) : Except Stop Given :=
  if g.has f.long || (f.effect == .value true && value.isEmpty) then .error .misuse
  else .ok { g with values := g.values ++ [(f.long, value)] }

def addOperand (u : Usage) (g : Given) (word : Text) : Except Stop Given :=
  if g.operands.length < u.operands then .ok { g with operands := g.operands ++ [word] }
  else .error .misuse

end Given

/-- An option without its value, or with all that it needs. -/
inductive Read where
  | complete (g : Given)
  | awaiting (f : Flag)

def readLong (u : Usage) (g : Given) (word : Text) : Except Stop Read :=
  let name := word.takeWhile (· ≠ '=')
  let attached : Option Text := match word.dropWhile (· ≠ '=') with
    | [] => none
    | _ :: value => some value
  match u.flags.find? (·.long == name) with
  | none => .error .misuse
  | some f =>
    match f.effect, attached with
    | .value _, some value => (g.set f value).map .complete
    | .value _, none => .ok (.awaiting f)
    | _, some _ => .error .misuse
    | .switch, none => (g.set f []).map .complete
    | .version, none => .error .version
    | .help, none => .error .help

/-- Options under their short names, behind one dash. -/
def readShort (u : Usage) (g : Given) : Text → Except Stop Read
  | [] => .ok (.complete g)
  | c :: rest =>
    match u.flags.find? (·.short == some c) with
    | none => .error .misuse
    | some f =>
      match f.effect with
      | .value _ =>
        match rest with
        | [] => .ok (.awaiting f)
        | '=' :: value => (g.set f value).map .complete
        | value => (g.set f value).map .complete
      | .switch => (g.set f []).bind (readShort u · rest)
      | .version => .error .version
      | .help => .error .help

/-- Does a word look like an option? -/
def isOption : Text → Bool
  | '-' :: _ :: _ => true
  | _ => false

/-- Words behind `--`. -/
def readOperands (u : Usage) (g : Given) (words : List Text) : Except Stop Given :=
  words.foldlM (Given.addOperand u) g

/-- Reads words up to the name of a command, which is given with the words behind it. -/
def readWords (u : Usage) : Given → List Text → Except Stop (Given × Option (Text × List Text))
  | g, [] => .ok (g, none)
  | g, word :: words =>
    match word with
    | ['-', '-'] => (readOperands u g words).map (·, none)
    | '-' :: c :: rest => do
      match ← if c = '-' then readLong u g rest else readShort u g (c :: rest) with
      | .complete g => readWords u g words
      | .awaiting f =>
        match words with
        | [] => throw .misuse
        | value :: words =>
          if isOption value then throw .misuse
          readWords u (← g.set f value) words
    | _ =>
      if u.commands.contains word then .ok (g, some (word, words))
      else (g.addOperand u word).bind (readWords u · words)

inductive Task where
  /-- generate the pages of a project -/
  | router (overrides : Overrides)
  /-- start a project -/
  | init (name : Text) (title : Option Text) (template : FilePath) (force : Bool)
  /-- print the route table of a project -/
  | inspect (routes : Option Text)

structure Invocation where
  projectRoot : FilePath
  task : Task

def rootFlag : Flag := ⟨"project-root", some 'r', .value true⟩

def helpFlag : Flag := ⟨"help", some 'h', .help⟩

def mainUsage : Usage where
  flags := [rootFlag, helpFlag, ⟨"version", some 'V', .version⟩]
  operands := 0
  commands := Text.texts ["router", "init", "inspect", "help"]

def routerUsage : Usage where
  flags := [rootFlag, helpFlag, ⟨"routes", none, .value false⟩, ⟨"template", none, .value false⟩]
  operands := 0
  commands := []

def initUsage : Usage where
  flags := [rootFlag, helpFlag, ⟨"title", none, .value false⟩, ⟨"template", none, .value true⟩,
    ⟨"force", some 'f', .switch⟩]
  operands := 1
  commands := []

def inspectUsage : Usage where
  flags := [rootFlag, helpFlag, ⟨"routes", none, .value false⟩]
  operands := 0
  commands := []

/-- Help on a command that exists, or on all of them. -/
def readHelp (words : List Text) : Stop :=
  match words with
  | [] => .help
  | [name] => if mainUsage.commands.contains name then .help else .misuse
  | _ => .misuse

def readTask (name : Text) (words : List Text) : Except Stop (Task × Given) := do
  if name == "router" then
    let (g, _) ← readWords routerUsage .none words
    return (.router ⟨g.value? "routes", g.value? "template"⟩, g)
  else if name == "init" then
    let (g, _) ← readWords initUsage .none words
    match g.operands, g.value? "template" with
    | [name], some template => return (.init name (g.value? "title") ⟨template⟩ (g.has "force"), g)
    | _, _ => throw .misuse
  else if name == "inspect" then
    let (g, _) ← readWords inspectUsage .none words
    return (.inspect (g.value? "routes"), g)
  else throw (readHelp words)

/-- Reads a command line. Of a root before the command and one behind it the latter counts. -/
def readInvocation (words : List Text) : Except Stop Invocation := do
  match ← readWords mainUsage .none words with
  | (_, none) => throw .misuse
  | (above, some (name, words)) =>
    let (task, below) ← readTask name words
    let root := ((below.value? rootFlag.long).or (above.value? rootFlag.long)).getD "."
    return ⟨⟨root⟩, task⟩

end RoutePages.Command
