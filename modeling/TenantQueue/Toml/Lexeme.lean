import TenantQueue.Text.Hexadecimal

/-! The smallest parts of a TOML document: blanks, line ends, comments, strings and keys. A reader
returns what it has read and the rest of the text, or nothing if the text does not start so. -/
namespace TenantQueue.Toml
open Text

abbrev Reader (α : Type) := List Char → Option (α × List Char)

def skipBlanks (s : List Char) : List Char := s.dropWhile fun c => c = ' ' || c = '\t'

def isText (c : Char) : Bool := c = '\t' || ' ' ≤ c && c ≠ '\x7f'

def lineEnd : List Char → Option (List Char)
  | '\n' :: rest => some rest
  | '\r' :: '\n' :: rest => some rest
  | _ => none

def skipComment : List Char → List Char
  | '#' :: rest => rest.dropWhile isText
  | s => s

def restOfLine (s : List Char) : Option (List Char) :=
  match skipComment (skipBlanks s) with
  | [] => some []
  | s => lineEnd s

def skipLines : Nat → List Char → List Char
  | 0, s => s
  | fuel + 1, s =>
    let s := skipBlanks s
    match lineEnd (skipComment s) with
    | some rest => skipLines fuel rest
    | none => s

def skipAllLines (s : List Char) : List Char := skipLines s.length s

def codePoint (count : Nat) (s : List Char) : Option (Char × List Char) := do
  let digits ← (s.take count).mapM hexValue?
  let n := digits.foldl (fun n d => 16 * n + d) 0
  if digits.length = count ∧ n.isValidChar then some (Char.ofNat n, s.drop count) else none

def escaped : Reader Char
  | 'b' :: rest => some ('\x08', rest)
  | 't' :: rest => some ('\t', rest)
  | 'n' :: rest => some ('\n', rest)
  | 'f' :: rest => some ('\x0c', rest)
  | 'r' :: rest => some ('\r', rest)
  | '"' :: rest => some ('"', rest)
  | '\\' :: rest => some ('\\', rest)
  | 'u' :: rest => codePoint 4 rest
  | 'U' :: rest => codePoint 8 rest
  | _ => none

def basicString : Nat → List Char → Reader (List Char)
  | fuel + 1, seen, c :: rest =>
    if c = '"' then some (seen.reverse, rest)
    else if c = '\\' then do
      let (c, rest) ← escaped rest
      basicString fuel (c :: seen) rest
    else if isText c then basicString fuel (c :: seen) rest
    else none
  | _, _, _ => none

def literalString (s : List Char) : Option (List Char × List Char) :=
  let text := s.takeWhile fun c => isText c && c ≠ '\''
  match s.drop text.length with
  | '\'' :: rest => some (text, rest)
  | _ => none

/-- The end of a string over several lines, at its closing quotes: up to two more quotes before
them belong to the string. -/
def closing (quote : Char) (s : List Char) : Option (Nat × List Char) :=
  let run := (s.takeWhile (· = quote)).length
  if run < 3 then none else if run ≤ 5 then some (run - 3, s.drop run) else none

def skipBlankLines : Nat → List Char → List Char
  | 0, s => s
  | fuel + 1, s =>
    match lineEnd (skipBlanks s) with
    | some rest => skipBlankLines fuel rest
    | none => skipBlanks s

def hiddenLineEnd (s : List Char) : Option (List Char) :=
  (lineEnd (skipBlanks s)).map fun rest => skipBlankLines rest.length rest

def longString (quote : Char) (escapes : Bool) : Nat → List Char → Reader (List Char)
  | fuel + 1, seen, c :: rest =>
    if c = quote then
      if rest.take 2 = [quote, quote] then
        (closing quote (c :: rest)).map fun (more, rest) =>
          (seen.reverse ++ List.replicate more quote, rest)
      else longString quote escapes fuel (c :: seen) rest
    else if escapes ∧ c = '\\' then
      match hiddenLineEnd rest with
      | some rest => longString quote escapes fuel seen rest
      | none => do
        let (c, rest) ← escaped rest
        longString quote escapes fuel (c :: seen) rest
    else if isText c then longString quote escapes fuel (c :: seen) rest
    else do
      let rest ← lineEnd (c :: rest)
      longString quote escapes fuel ('\n' :: seen) rest
  | _, _, _ => none

def openLong (s : List Char) : List Char := (lineEnd s).getD s

def string (s : List Char) : Option (String × List Char) :=
  let text (r : Option (List Char × List Char)) := r.map fun (t, rest) => (String.ofList t, rest)
  match s with
  | '"' :: '"' :: '"' :: rest => text (longString '"' true (s.length + 1) [] (openLong rest))
  | '\'' :: '\'' :: '\'' :: rest => text (longString '\'' false (s.length + 1) [] (openLong rest))
  | '"' :: rest => text (basicString (s.length + 1) [] rest)
  | '\'' :: rest => text (literalString rest)
  | _ => none

def isBareKey (c : Char) : Bool := c.isAlphanum || c = '_' || c = '-'

def keyPart (s : List Char) : Option (String × List Char) :=
  match s with
  | '"' :: rest =>
    (basicString (s.length + 1) [] rest).map fun (t, rest) => (String.ofList t, rest)
  | '\'' :: rest => (literalString rest).map fun (t, rest) => (String.ofList t, rest)
  | _ =>
    let bare := s.takeWhile isBareKey
    if bare = [] then none else some (String.ofList bare, s.drop bare.length)

def keyParts : Nat → Reader (List String)
  | 0, _ => none
  | fuel + 1, s => do
    let (part, rest) ← keyPart (skipBlanks s)
    match skipBlanks rest with
    | '.' :: rest => do
      let (parts, rest) ← keyParts fuel rest
      some (part :: parts, rest)
    | rest => some ([part], rest)

def depthLimit : Nat := 79

def key (s : List Char) : Option (List String × List Char) := do
  let (parts, rest) ← keyParts (s.length + 1) s
  if parts.length ≤ depthLimit then some (parts, rest) else none

end TenantQueue.Toml
