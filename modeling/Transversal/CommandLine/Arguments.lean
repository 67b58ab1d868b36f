/-
The arguments of a command, taken apart by a grammar of options and positional arguments.

* `Grammar.tokenOf`: whether an argument names an option; an unambiguous beginning of a long name
  is enough, and a value may follow after an equals sign.
* `Grammar.read`: the options and positional arguments in the order they are met, what is left
  over, and what is wrong.
* `Problem.message`: what is wrong, in words.
-/
import Transversal.Given
import Transversal.Text.Digit
import Transversal.Text.Quoted

namespace Transversal.CommandLine

/-- How many values an option takes. -/
inductive Arity
  | none
  | one
  | several
deriving DecidableEq

/-- An option with its names, short ones first. -/
structure Flag where
  names : List String
  arity : Arity
deriving DecidableEq

/-- All names of an option, as they are shown in messages. -/
def Flag.title (flag : Flag) : String := "/".intercalate flag.names

/-- A positional argument. One that may be left out comes after all that may not. -/
structure Positional where
  name : String
  required : Bool
deriving DecidableEq

/-- The options and positional arguments of a command. -/
structure Grammar where
  flags : List Flag
  positionals : List Positional

/-- What is wrong with the arguments. -/
inductive Problem
  | expectedOne (title : String)
  | expectedSeveral (title : String)
  | needlessValue (title value : String)
  | badValue (title kind value : String)
  | badDomain (title domain value : String)
  | badChoice (title value : String) (choices : List String)
  | ambiguous (argument : String) (candidates : List String)
  | missing (names : List String)
  | leftOver (arguments : List String)
deriving DecidableEq

def Problem.message : Problem → String
  | .expectedOne title => s!"argument {title}: expected one argument"
  | .expectedSeveral title => s!"argument {title}: expected at least one argument"
  | .needlessValue title value =>
    s!"argument {title}: ignored explicit argument {quoted value.toList}"
  | .badValue title kind value =>
    s!"argument {title}: invalid {kind} value: {quoted value.toList}"
  | .badDomain title domain value => s!"argument {title}: expected {domain}, got {value}"
  | .badChoice title value choices =>
    let listed := ", ".intercalate (choices.map fun choice => quoted choice.toList)
    s!"argument {title}: invalid choice: {quoted value.toList} (choose from {listed})"
  | .ambiguous argument candidates =>
    let listed := ", ".intercalate candidates
    s!"ambiguous option: {argument} could match {listed}"
  | .missing names =>
    let listed := ", ".intercalate names
    s!"the following arguments are required: {listed}"
  | .leftOver arguments =>
    let listed := " ".intercalate arguments
    s!"unrecognized arguments: {listed}"

/-- An option met in the arguments: the name it was found by, and a value in the same argument. -/
structure Found where
  flag : Flag
  name : String
  value : Option String

/-- An argument by its role. -/
inductive Token
  | plain (text : String)
  | separator
  | unknown (text : String)
  | option (found : Found)

/-- The argument that ends the options. -/
def separatorText : String := "--"

/-- A text up to its first equals sign, and what follows the sign. -/
def splitValue (text : String) : String × Option String :=
  match text.toList.dropWhile (· ≠ '=') with
  | [] => (text, none)
  | _ :: value => (String.ofList (text.toList.takeWhile (· ≠ '=')), some (String.ofList value))

/-- A negative number: such an argument is no option. A line end may follow it. -/
def looksNegative (text : String) : Bool :=
  let isDigit (c : Char) : Bool := (digitValue? c).isSome
  match text.toList with
  | '-' :: body =>
    let body := if body.getLast? = some '\n' then body.dropLast else body
    match body.dropWhile isDigit with
    | [] => !body.isEmpty
    | '.' :: places => !places.isEmpty && places.all isDigit
    | _ => false
  | _ => false

/-- Whether the first text begins the second one. -/
def begins (start text : String) : Bool := start.toList.isPrefixOf text.toList

namespace Grammar

/-- All names with their options, in order. -/
def entries (grammar : Grammar) : List (String × Flag) :=
  grammar.flags.flatMap fun flag => flag.names.map (·, flag)

/-- The option with a given name. -/
def named? (grammar : Grammar) (name : String) : Option Flag :=
  (grammar.entries.find? (·.1 = name)).map (·.2)

/-- The options that an abbreviated argument may mean. A long name may be cut short; a short one
may be followed at once by its value. -/
def candidates (grammar : Grammar) (text : String) : List Found :=
  if begins separatorText text then
    let (start, value) := splitValue text
    grammar.entries.filterMap fun (name, flag) =>
      if begins start name then some ⟨flag, name, value⟩ else none
  else
    let short := String.ofList (text.toList.take 2)
    grammar.entries.filterMap fun (name, flag) =>
      if name = short then some ⟨flag, name, some (String.ofList (text.toList.drop 2))⟩
      else if begins text name then some ⟨flag, name, none⟩
      else none

/-- The role of an argument before the separator. -/
def tokenOf (grammar : Grammar) (text : String) : Except Problem Token :=
  if !begins "-" text then .ok (.plain text)
  else match grammar.named? text with
    | some flag => .ok (.option ⟨flag, text, none⟩)
    | none =>
      if text.length = 1 then .ok (.plain text)
      else match splitValue text, grammar.named? (splitValue text).1 with
        | (name, some value), some flag => .ok (.option ⟨flag, name, some value⟩)
        | _, _ =>
          match grammar.candidates text with
          | [found] => .ok (.option found)
          | [] =>
            if looksNegative text || text.contains ' ' then .ok (.plain text)
            else .ok (.unknown text)
          | several => .error (.ambiguous text (several.map (·.name)))

/-- The roles of all arguments. After the separator all of them are plain. -/
def tokens (grammar : Grammar) : List String → Except Problem (List Token)
  | [] => .ok []
  | text :: rest =>
    if text = separatorText then .ok (.separator :: rest.map Token.plain)
    else do
      let token ← grammar.tokenOf text
      pure (token :: (← tokens grammar rest))

end Grammar

/-- An option or a positional argument met, with its values. Where one value belongs there may
still be none: a separator in its place is dropped. -/
inductive Use
  | option (flag : Flag) (values : List String)
  | positional (positional : Positional) (values : List String)

/-- What is read so far: what was met, what fits nowhere, the positional arguments not met yet,
and the first problem. -/
structure Reading where
  uses : List Use
  leftOver : List String
  awaited : List Positional
  problem : Option Problem

/-- The argument as it was given, if it is not an option. -/
def Token.plainText? : Token → Option String
  | .plain text => some text
  | .separator => some separatorText
  | _ => none

/-- The plain arguments at the front, and the rest. -/
def spanPlain (tokens : List Token) : List String × List Token :=
  let isPlain : Token → Bool := fun token => match token with
    | .plain _ => true
    | _ => false
  ((tokens.takeWhile isPlain).filterMap Token.plainText?, tokens.dropWhile isPlain)

/-- The separators at the front counted, and the rest. -/
def spanSeparators (tokens : List Token) : List String × List Token :=
  let isSeparator : Token → Bool := fun token => match token with
    | .separator => true
    | _ => false
  ((tokens.takeWhile isSeparator).filterMap Token.plainText?, tokens.dropWhile isSeparator)

/-- The arguments of one positional: a plain one, if there is one, with the separators around it.
One of the separators is dropped. -/
def takePositional (positional : Positional) (tokens : List Token) :
    Option (List String × List Token) :=
  let (before, rest) := spanSeparators tokens
  match rest with
  | .plain text :: rest =>
    let (after, rest) := spanSeparators rest
    some ((before ++ text :: after).erase separatorText, rest)
  | _ => if positional.required then none else some ([], rest)

/-- As many of the awaited positional arguments as there are arguments for. -/
def takePositionals : (awaited : List Positional) → List Token →
    List Use × List Positional × List Token
  | [], tokens => ([], [], tokens)
  | positional :: later, tokens =>
    match takePositional positional tokens with
    | none => ([], positional :: later, tokens)
    | some (values, rest) =>
      let (uses, awaited, rest) := takePositionals later rest
      (.positional positional values :: uses, awaited, rest)

/-- An option with the values that follow it, or what is wrong with it. -/
def takeValues (flag : Flag) (rest : List Token) : Except Problem (Use × List Token) :=
  match flag.arity with
  | .none => .ok (.option flag [], rest)
  | .one =>
    match rest with
    | .plain text :: rest => .ok (.option flag [text], rest)
    | _ => .error (.expectedOne flag.title)
  | .several =>
    match spanPlain rest with
    | ([], _) => .error (.expectedSeveral flag.title)
    | (values, rest) => .ok (.option flag values, rest)

/-- An option with its values. One in the same argument is dropped if it is the separator. A short
option that takes none may be followed at once by the letters of others. -/
def takeOption (grammar : Grammar) (flag : Flag) (name : String) (value : Option (List Char))
    (rest : List Token) : Except Problem (List Use × List Token) :=
  match value with
  | none => (takeValues flag rest).map fun (use, rest) => ([use], rest)
  | some letters =>
    if flag.arity ≠ .none then
      .ok ([.option flag ([String.ofList letters].erase separatorText)], rest)
    else
      let needless := Problem.needlessValue flag.title (String.ofList letters)
      match letters with
      | [] => .error needless
      | letter :: more =>
        if begins separatorText name then .error needless
        else
          let next := String.ofList ['-', letter]
          match grammar.named? next with
          | none => .error needless
          | some other => do
            let later := if more.isEmpty then none else some more
            let (uses, rest) ← takeOption grammar other next later rest
            pure (.option flag [] :: uses, rest)
termination_by value.elim 0 (·.length + 1)
decreasing_by split <;> simp

/-- The arguments up to the next option. -/
def beforeOption (tokens : List Token) : List Token × List Token :=
  let isOther : Token → Bool := fun token => token.plainText?.isSome
  (tokens.takeWhile isOther, tokens.dropWhile isOther)

/-- Positional arguments and options in turns. Positional arguments are taken only as far as the
next option; what is left before it fits nowhere. `steps` bounds the number of turns. -/
def readTokens (grammar : Grammar) : (steps : Nat) → List Token → Reading → Reading
  | 0, _, reading => reading
  | steps + 1, tokens, reading =>
    let (front, fromOption) := beforeOption tokens
    let (uses, awaited, unused) :=
      if front.isEmpty && !fromOption.isEmpty then ([], reading.awaited, [])
      else takePositionals reading.awaited front
    let reading : Reading := { reading with
      uses := reading.uses ++ uses
      leftOver := reading.leftOver ++ unused.filterMap Token.plainText?
      awaited }
    match fromOption with
    | .option found :: rest =>
      match takeOption grammar found.flag found.name (found.value.map String.toList) rest with
      | .error problem => { reading with problem := some problem }
      | .ok (uses, rest) =>
        readTokens grammar steps rest { reading with uses := reading.uses ++ uses }
    | .unknown text :: rest =>
      readTokens grammar steps rest { reading with leftOver := reading.leftOver ++ [text] }
    | _ => reading

/-- The problem with what is missing at the end, or left over. -/
def Reading.finish (reading : Reading) : Reading :=
  if reading.problem.isSome then reading
  else
    let missing := (reading.awaited.filter (·.required)).map (·.name)
    if !missing.isEmpty then { reading with problem := some (.missing missing) }
    else if !reading.leftOver.isEmpty then
      { reading with problem := some (.leftOver reading.leftOver) }
    else reading

/-- All arguments read. -/
def Grammar.read (grammar : Grammar) (arguments : List String) : Reading :=
  match grammar.tokens arguments with
  | .error problem => ⟨[], [], grammar.positionals, some problem⟩
  | .ok tokens =>
    (readTokens grammar (tokens.length + 1) tokens ⟨[], [], grammar.positionals, none⟩).finish

/-- How a command ends before it does its work: it shows its help, or a problem. -/
inductive Stop
  | help
  | problem (problem : Problem)
deriving DecidableEq

/-- The one value of an option or argument. -/
def givenOf {α : Type} (values : List String) (read : String → Except Stop α) :
    Except Stop (Given α) :=
  match values with
  | [] => .ok .blank
  | text :: _ => (read text).map .value

/-- The settings that the uses make, one after the other. A problem with a value stops at once,
one with the arguments as a whole only at the end. -/
def Reading.settle {α : Type} (reading : Reading) (apply : α → Use → Except Stop α) (start : α) :
    Except Stop α := do
  let settings ← reading.uses.foldlM apply start
  match reading.problem with
  | some problem => throw (.problem problem)
  | none => pure settings

end Transversal.CommandLine
