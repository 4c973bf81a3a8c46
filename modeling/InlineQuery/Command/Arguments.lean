/-
Command-line arguments: options and operands.

An option is written `--name` or, if it has a letter, `-n`; letters may be
run together. Its value is the next argument, or stands behind an equals
sign, or directly behind the letter. What starts with a hyphen is never
taken for the value of an option or for an operand, unless it is the hyphen
alone, or stands behind the argument `--`.
-/
import InlineQuery.Text.Basic

namespace InlineQuery

/-- An option that a command knows. -/
structure OptionForm (α : Type) where
  option : α
  name : Text
  letter : Option Char
  takesValue : Bool

/-- An argument that was recognized. -/
inductive Argument (α : Type)
  /-- An option, with its value if it takes one. -/
  | option (option : α) (value : Option Text)
  /-- An operand. -/
  | operand (text : Text)

namespace Argument

variable {α : Type}

/-- The argument may be the value of an option that stands before it. -/
def isValue : Text → Bool
  | '-' :: _ :: _ => false
  | _ => true

/-- The part in front of the first equals sign, and the part behind it if
there is one. -/
def splitEquals (t : Text) : Text × Option Text :=
  match Text.splitOnce? '=' t with
  | some (name, value) => (name, some value)
  | none => (t, none)

/-- What letters run together behind a hyphen mean: options without a value,
and possibly one with a value at the end, which may still be missing. -/
def readLetters? (forms : List (OptionForm α)) :
    Text → Option (List (Argument α) × Option α)
  | [] => some ([], none)
  | letter :: rest =>
    match forms.find? fun form => form.letter == some letter with
    | none => none
    | some form =>
      if form.takesValue then
        match rest with
        | [] => some ([], some form.option)
        | '=' :: value => some ([.option form.option (some value)], none)
        | value => some ([.option form.option (some value)], none)
      else
        (readLetters? forms rest).map fun others =>
          (.option form.option none :: others.1, others.2)

/-- What one argument means, by itself: the options and operands in it, and
the option that takes the next argument as its value, if there is one. -/
def readOne? (forms : List (OptionForm α)) (argument : Text) :
    Option (List (Argument α) × Option α) :=
  match argument with
  | '-' :: '-' :: long =>
    let (name, value) := splitEquals long
    match forms.find? fun form => form.name == name with
    | none => none
    | some form =>
      match form.takesValue, value with
      | true, none => some ([], some form.option)
      | true, some value => some ([.option form.option (some value)], none)
      | false, none => some ([.option form.option none], none)
      | false, some _ => none
  | '-' :: letter :: letters => readLetters? forms (letter :: letters)
  | t => some ([.operand t], none)

/-- The options and operands that arguments give; none if an option is
unknown, lacks its value or has one it does not take. `waiting` is the
option that the first argument is the value of. -/
def read? (forms : List (OptionForm α)) (waiting : Option α) :
    List Text → Option (List (Argument α))
  | [] => if waiting.isSome then none else some []
  | argument :: rest =>
    match waiting with
    | some waitingOption =>
      if isValue argument then
        (read? forms none rest).map (.option waitingOption (some argument) :: ·)
      else none
    | none =>
      if argument = ['-', '-'] then some (rest.map .operand)
      else
        match readOne? forms argument with
        | none => none
        | some (found, waiting) => (read? forms waiting rest).map (found ++ ·)

end Argument

end InlineQuery
