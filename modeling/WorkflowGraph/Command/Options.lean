import WorkflowGraph.Table
import WorkflowGraph.Text.Search
/-
Options on a command line. An option has a long name, and some have a letter as well. A value follows its option as the
next word, after a sign of equality or, for a letter, in the same word; letters without a value may share a word. Of an
option that is repeated the last value counts. Words that belong to no option are not accepted.
-/
namespace WorkflowGraph

/-- an option of a command -/
structure OptionSpec where
  name : String
  letter : Option Char
  takesValue : Bool

/-- options with their values; an option without a value has an empty one -/
abbrev Settings := Table String String

namespace OptionSpec

/-- what one word gives: options with their values, and the option that the next word is the value of -/
structure Word where
  given : List (String × String)
  waiting : Option String

/-- the options that the letters of a word stand for -/
def ofLetters (specs : List OptionSpec) : List Char → Option Word
  | [] => some ⟨[], none⟩
  | c :: rest =>
    match specs.find? fun o => o.letter == some c with
    | none => none
    | some o =>
      if o.takesValue then
        if rest.isEmpty then some ⟨[], some o.name⟩ else some ⟨[(o.name, String.ofList rest)], none⟩
      else (ofLetters specs rest).map fun w => { w with given := (o.name, "") :: w.given }

/-- the name in a word, and the value after a sign of equality -/
def splitValue (word : List Char) : String × Option String :=
  match Text.cut? ['='] word with
  | some (name, value) => (String.ofList name, some (String.ofList value))
  | none => (String.ofList word, none)

/-- the options that a word gives -/
def ofWord (specs : List OptionSpec) (word : List Char) : Option Word :=
  let (name, value) := splitValue word
  match specs.find? fun o => o.name == name with
  | some o =>
    match o.takesValue, value with
    | true, some v => some ⟨[(o.name, v)], none⟩
    | true, none => some ⟨[], some o.name⟩
    | false, none => some ⟨[(o.name, "")], none⟩
    | false, some _ => none
  | none => if ['-', '-'].isPrefixOf word then none else ofLetters specs (word.drop 1)

/-- whether a word gives options -/
def isOption (word : List Char) : Bool := word.head? == some '-' && 1 < word.length

/-- the settings in some words, unless one of them fits no option; two dashes alone end the options -/
def settings (specs : List OptionSpec) : List String → Option Settings
  | [] => some []
  | word :: rest =>
    let cs := word.toList
    if word == "--" then if rest.isEmpty then some [] else none
    else if !isOption cs then none
    else
      match ofWord specs cs, rest with
      | none, _ => none
      | some ⟨given, none⟩, rest => (settings specs rest).map (given ++ ·)
      | some ⟨_, some _⟩, [] => none
      | some ⟨given, some name⟩, value :: rest => (settings specs rest).map fun s => given ++ (name, value) :: s

end OptionSpec

namespace Settings

/-- the last value of an option -/
def value? (s : Settings) (name : String) : Option String :=
  ((s.filter fun e => e.1 == name).getLast?).map (·.2)

def isSet (s : Settings) (name : String) : Bool := (s.value? name).isSome

end Settings

end WorkflowGraph
