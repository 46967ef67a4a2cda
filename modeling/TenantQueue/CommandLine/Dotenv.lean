import TenantQueue.Environment
import TenantQueue.Text.Alphanumeric
import TenantQueue.Text.Blank

/-! Files of settings for the environment, one `NAME=value` a line. A line goes on as long as a
quote is open. Values may be quoted and may refer to other variables. Reading ends at the first
line that is not well formed. -/
namespace TenantQueue.CommandLine.Dotenv
open Text

inductive Scan where
  | plain
  /-- After a blank, where a comment may begin. -/
  | blank
  | escape
  | strong
  | strongEscape
  | weak
  | weakEscape
  deriving DecidableEq, Repr

namespace Scan

def outside (c : Char) (otherwise : Scan) : Scan :=
  if c = '\\' then .escape else if c = '"' then .weak else if c = '\'' then .strong else otherwise

def next (c : Char) : Scan → Scan
  | .plain => outside c (if isBlank c ∧ c ≠ '\n' ∧ c ≠ '\r' then .blank else .plain)
  | .blank => outside c .plain
  | .escape => .plain
  | .strong => if c = '\\' then .strongEscape else if c = '\'' then .plain else .strong
  | .strongEscape => .strong
  | .weak => if c = '\\' then .weakEscape else if c = '"' then .plain else .weak
  | .weakEscape => .weak

def after (s : Scan) (line : List Char) : Scan := line.foldl (fun s c => s.next c) s

def beforeComment? : Scan → List Char → Option (List Char)
  | _, [] => none
  | s, c :: rest =>
    if s = .blank ∧ c = '#' then some []
    else (beforeComment? (s.next c) rest).map (c :: ·)

end Scan

def physicalLines : List Char → List (List Char)
  | [] => []
  | c :: rest =>
    if c = '\n' then [c] :: physicalLines rest
    else match physicalLines rest with
      | [] => [[c]]
      | line :: lines => (c :: line) :: lines

def withoutEnd (line : List Char) : List Char :=
  match line.reverse with
  | '\n' :: '\r' :: rest => rest.reverse
  | '\n' :: rest => rest.reverse
  | _ => line

def lines : Scan → List Char → List (List Char) → List (Option (List Char))
  | s, _, [] => if s = .plain then [] else [none]
  | s, before, line :: rest =>
    if (trimStart (before ++ line)).head? = some '#' then some [] :: lines .plain [] rest
    else match s.beforeComment? line with
      | some text => some (before ++ text) :: lines .plain [] rest
      | none =>
        match s.after line with
        | .plain => some (withoutEnd (before ++ line)) :: lines .plain [] rest
        | s => lines s (before ++ line) rest

inductive Mode where
  | text
  | strong
  | escape
  /-- A name after a dollar sign, as far as it was read. -/
  | name (read : List Char)
  /-- The same within braces. -/
  | braced (read : List Char)
  /-- After the value, where only a comment may follow. -/
  | trailing
  | comment
  deriving DecidableEq, Repr

structure Reading where
  value : List Char := []
  /-- Within double quotes. -/
  weak : Bool := false
  mode : Mode := .text
  deriving Repr

namespace Reading

def push (r : Reading) (text : List Char) : Reading := { r with value := r.value ++ text }

def escaped? : Char → Option Char
  | '\\' => some '\\'
  | '\'' => some '\''
  | '"' => some '"'
  | '$' => some '$'
  | ' ' => some ' '
  | 'n' => some '\n'
  | _ => none

def textStep (r : Reading) (c : Char) : Reading :=
  if c = '$' then { r with mode := .name [] }
  else if c = '"' then { r with weak := !r.weak }
  else if c = '\\' then { r with mode := .escape }
  else if r.weak then r.push [c]
  else if c = '\'' then { r with mode := .strong }
  else if c = ' ' ∨ c = '\t' then { r with mode := .trailing }
  else r.push [c]

/-- A name ends at the first character that is neither letter nor number, and this character stands
for itself unless it is another dollar sign. -/
def nameStep (find : List Char → List Char) (r : Reading) (name : List Char) (c : Char) : Reading :=
  if alphanumeric.has c then { r with mode := .name (name ++ [c]) }
  else if c = '\x7b' ∧ name = [] then { r with mode := .braced [] }
  else if c = '$' then { r.push (find name) with mode := .name [] }
  else { (r.push (find name)).push [c] with mode := .text }

def step (find : List Char → List Char) (r : Reading) (c : Char) : Option Reading :=
  match r.mode with
  | .text => some (r.textStep c)
  | .strong => some (if c = '\'' then { r with mode := .text } else r.push [c])
  | .escape => (escaped? c).map fun c => { r.push [c] with mode := .text }
  | .name name => some (r.nameStep find name c)
  | .braced name =>
    some (if c = '\x7d' then { r.push (find name) with mode := .text }
      else { r with mode := .braced (name ++ [c]) })
  | .trailing =>
    if c = ' ' ∨ c = '\t' then some r
    else if c = '#' then some { r with mode := .comment }
    else none
  | .comment => some r

def finish (find : List Char → List Char) (r : Reading) : Option (List Char) :=
  if r.weak then none
  else match r.mode with
    | .strong => none
    | .braced _ => none
    | .name name => some (r.push (find name)).value
    | _ => some r.value

end Reading

def value (find : List Char → List Char) (s : List Char) : Option (List Char) :=
  (s.foldlM (Reading.step find) {}).bind (Reading.finish find)

def startsName (c : Char) : Bool := c.isAlpha || c = '_'

def inName (c : Char) : Bool := c.isAlphanum || c = '_' || c = '.'

def name : List Char → Option (List Char × List Char)
  | [] => none
  | c :: rest =>
    if startsName c then
      let name := (c :: rest).takeWhile inName
      some (name, trimStart ((c :: rest).drop name.length))
    else none

def afterEquals : List Char → Option (List Char)
  | '=' :: rest => some (trimStart rest)
  | _ => none

def named (s : List Char) : Option (List Char × List Char) := do
  let (first, rest) ← name s
  match afterEquals rest with
  | some rest => some (first, rest)
  | none =>
    if first = "export".toList then
      let (second, rest) ← name rest
      (afterEquals rest).map fun rest => (second, rest)
    else none

abbrev Entry := String × String

inductive Line where
  | nothing
  | entry (e : Entry)
  | malformed
  deriving DecidableEq, Repr

def isNothing (s : List Char) : Bool := s = [] ∨ s.head? = some '#'

def Line.ofText (find : List Char → List Char) (text : List Char) : Line :=
  let s := trim text
  if isNothing s then .nothing
  else match named s with
    | none => .malformed
    | some (name, rest) =>
      if isNothing rest then .entry (String.ofList name, "")
      else match value find rest with
        | some v => .entry (String.ofList name, String.ofList v)
        | none => .malformed

def find (env : Environment) (known : List Entry) (name : List Char) : List Char :=
  let name := String.ofList name
  ((env.text? name).getD ((known.lookup name).getD "")).toList

/-- What is set already stays, unless it is not text. No environment takes a value with a null
character. -/
def set? (env : Environment) (e : Entry) : Option Environment :=
  if (env.text? e.1).isSome then some env
  else if '\x00' ∈ e.2.toList then none
  else some ((e.1, .ofString e.2) :: env)

def loadLines : Environment → List Entry → List (Option (List Char)) → Option Environment
  | env, known, some text :: rest =>
    match Line.ofText (find env known) text with
    | .nothing => loadLines env known rest
    | .entry e => (set? env e).bind fun env => loadLines env (e :: known) rest
    | .malformed => some env
  | env, _, _ => some env

/-- The environment with the variables of a file, if it takes them. A byte order mark is passed
over. -/
def load? (env : Environment) (content : String) : Option Environment :=
  let text := match content.toList with
    | '\ufeff' :: rest => rest
    | text => text
  loadLines env [] (lines .plain [] (physicalLines text))

def mentioned : List Char → List String
  | [] => []
  | c :: rest =>
    if c = '$' then
      String.ofList (rest.takeWhile alphanumeric.has) ::
        String.ofList ((rest.drop 1).takeWhile (· ≠ '\x7d')) :: mentioned rest
    else mentioned rest

end TenantQueue.CommandLine.Dotenv
