import EarningsLedger.Text.Blank

/-!
# Settings files

A settings file holds one binding a line: a name, an equals sign and a value, with a
comment behind it. Names and values may be quoted, and a quoted value may run over lines.
A line that is no binding is skipped from where it stops making sense. A value may ask
for another by name, with a text to use when there is none.
-/

namespace EarningsLedger.Settings

open Text

/-- A name, and its value if the line had an equals sign. -/
abbrev FileBinding := String × Option String

namespace EnvFile

/-! ## Parts of a line -/

/-- The end of a line, and what follows it; the end of the file ends a line too. -/
def lineEnd (cs : List Char) : Option (List Char) :=
  match cs.dropWhile isInlineBlank with
  | [] => some []
  | '\r' :: '\n' :: rest => some rest
  | '\n' :: rest => some rest
  | '\r' :: rest => some rest
  | _ => none

def isLineEnd (c : Char) : Bool := c == '\n' || c == '\r'

def afterLine (cs : List Char) : List Char :=
  match cs.dropWhile (!isLineEnd ·) with
  | [] => []
  | _ :: rest => rest

/-- Drops a comment, with the blanks in front of it. -/
def dropComment (cs : List Char) : List Char :=
  match cs.dropWhile isInlineBlank with
  | '#' :: rest => rest.dropWhile (!isLineEnd ·)
  | _ => cs

/-- Drops the word that marks a name for export. -/
def dropExport (cs : List Char) : List Char :=
  let word := "export".toList
  if word.isPrefixOf cs then
    let rest := cs.drop word.length
    if (rest.head?.map isInlineBlank).getD false then rest.dropWhile isInlineBlank else cs
  else cs

/-- The text up to a closing quote, and what follows; a quote behind a backslash does not
close, unless no other does. -/
def quotedText (quote : Char) (cs : List Char) : Option (List Char × List Char) :=
  match cs with
  | [] => none
  | '\\' :: d :: rest =>
    if d = quote then
      match quotedText quote rest with
      | some found => some ('\\' :: d :: found.1, found.2)
      | none => some (['\\'], rest)
    else (quotedText quote (d :: rest)).map fun found => ('\\' :: found.1, found.2)
  | c :: rest =>
    if c = quote then some ([], rest)
    else (quotedText quote rest).map fun found => (c :: found.1, found.2)
termination_by cs.length

/-- The character that an escape in double quotes stands for. -/
def doubleEscape? (c : Char) : Option Char :=
  if c = '\\' ∨ c = '\'' ∨ c = '"' then some c
  else if c = 'a' then some (Char.ofNat 7)
  else if c = 'b' then some (Char.ofNat 8)
  else if c = 'f' then some (Char.ofNat 12)
  else if c = 'n' then some '\n'
  else if c = 'r' then some '\r'
  else if c = 't' then some '\t'
  else if c = 'v' then some (Char.ofNat 11)
  else none

/-- The character that an escape in single quotes stands for. -/
def singleEscape? (c : Char) : Option Char := if c = '\\' ∨ c = '\'' then some c else none

/-- Replaces escapes; a backslash in front of anything else stays. -/
def unescape (escape? : Char → Option Char) : List Char → List Char
  | [] => []
  | [c] => [c]
  | c :: d :: rest =>
    if c = '\\' then
      match escape? d with
      | some e => e :: unescape escape? rest
      | none => c :: unescape escape? (d :: rest)
    else c :: unescape escape? (d :: rest)

/-- Drops a comment that blanks divide from an unquoted value. -/
def cutComment : List Char → List Char
  | [] => []
  | c :: rest =>
    if isBlank c && (rest.dropWhile isBlank).head? == some '#' then [] else c :: cutComment rest

/-! ## Bindings -/

/-- A name; a line may also have none and hold a comment only. -/
def nameOf (cs : List Char) : Except (List Char) (Option String × List Char) :=
  match cs with
  | '#' :: _ => .ok (none, cs)
  | '\'' :: rest =>
    let name := rest.takeWhile (· != '\'')
    match rest.drop name.length with
    | _ :: after => if name = [] then .error cs else .ok (some (String.ofList name), after)
    | [] => .error cs
  | _ =>
    let name := cs.takeWhile fun c => c != '=' && c != '#' && !isBlank c
    if name = [] then .error cs else .ok (some (String.ofList name), cs.drop name.length)

def valueOf (cs : List Char) : Except (List Char) (String × List Char) :=
  let finish (escape? : Char → Option Char) (found : Option (List Char × List Char)) :=
    match found with
    | some found => .ok (String.ofList (unescape escape? found.1), found.2)
    | none => .error cs
  match cs with
  | '\'' :: rest => finish singleEscape? (quotedText '\'' rest)
  | '"' :: rest => finish doubleEscape? (quotedText '"' rest)
  | _ =>
    let line := cs.takeWhile (!isLineEnd ·)
    .ok (String.ofList (trimEnd isBlank (cutComment line)), cs.drop line.length)

/-- The value behind a name, if there is an equals sign. -/
def assigned (cs : List Char) : Except (List Char) (Option String × List Char) :=
  match cs.dropWhile isInlineBlank with
  | '=' :: rest => (valueOf (rest.dropWhile isInlineBlank)).map fun found => (some found.1, found.2)
  | rest => .ok (none, rest)

/-- One binding, and what follows its line; in a line that is none, where it stops making
sense. -/
def bindingOf (cs : List Char) : Except (List Char) (Option FileBinding × List Char) := do
  let (name, rest) ← nameOf (dropExport cs)
  let (value, rest) ← assigned rest
  let rest := dropComment rest
  match lineEnd rest with
  | some after => pure (name.map fun n => (n, value), after)
  | none => throw rest

/-- The bindings of a file, reading at most `steps` lines. -/
def bindingsFrom : (steps : Nat) → List Char → List FileBinding
  | 0, _ => []
  | steps + 1, cs =>
    match cs.dropWhile isBlank with
    | [] => []
    | start =>
      match bindingOf start with
      | .ok (found, rest) => found.toList ++ bindingsFrom steps rest
      | .error rest => bindingsFrom steps (afterLine rest)

/-- Ends every line with a line feed, and drops a mark in front of the text. -/
def plainLines : List Char → List Char
  | [] => []
  | '\r' :: '\n' :: rest => '\n' :: plainLines rest
  | '\r' :: rest => '\n' :: plainLines rest
  | c :: rest => c :: plainLines rest

def dropMark : List Char → List Char
  | '\ufeff' :: rest => rest
  | cs => cs

/-- The bindings of a file in their order. -/
def bindings (text : String) : List FileBinding :=
  let cs := plainLines (dropMark text.toList)
  bindingsFrom (cs.length + 1) cs

/-! ## Values that ask for others -/

/-- A reference behind its opening brace: a name, a text to use otherwise, and what
follows the closing brace. -/
def reference? (cs : List Char) : Option (List Char × List Char × List Char) :=
  let name := cs.takeWhile fun c => c != '\x7d' && c != ':'
  match cs.drop name.length with
  | '\x7d' :: rest => some (name, [], rest)
  | ':' :: '-' :: rest =>
    let other := rest.takeWhile (· != '\x7d')
    match rest.drop other.length with
    | _ :: rest => some (name, other, rest)
    | [] => none
  | _ => none

/-- Replaces references in a value, with at most `steps` characters to go. -/
def expandFrom (lookup : String → Option (Option String)) : (steps : Nat) → List Char → List Char
  | 0, _ => []
  | _ + 1, [] => []
  | steps + 1, c :: rest =>
    match c, rest with
    | '$', '\x7b' :: inner =>
      match reference? inner with
      | some (name, other, after) =>
        let value := match lookup (String.ofList name) with
          | some (some given) => given.toList
          | some none => []
          | none => other
        value ++ expandFrom lookup steps after
      | none => c :: expandFrom lookup steps rest
    | _, _ => c :: expandFrom lookup steps rest

def expand (lookup : String → Option (Option String)) (value : String) : String :=
  String.ofList (expandFrom lookup value.toList.length value.toList)

/-- Puts a binding in the place of one with its name, else at the end. -/
def putBinding (done : List FileBinding) (binding : FileBinding) : List FileBinding :=
  if done.any fun other => other.1 == binding.1 then
    done.map fun other => if other.1 == binding.1 then binding else other
  else done ++ [binding]

/-- A name's value, from the bindings before it and then from the environment. -/
def lookupIn (done : List FileBinding) (env : List (String × String)) (name : String) :
    Option (Option String) :=
  match done.find? fun binding => binding.1 == name with
  | some binding => some binding.2
  | none => (env.find? fun given => given.1 == name).map fun given => some given.2

/-- The values of a file, references replaced in their order. -/
def values (env : List (String × String)) (text : String) : List FileBinding :=
  (bindings text).foldl (fun done binding =>
    putBinding done (binding.1, binding.2.map (expand (lookupIn done env)))) []

end EnvFile

end EarningsLedger.Settings
