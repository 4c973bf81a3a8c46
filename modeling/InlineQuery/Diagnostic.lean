/-
Diagnostics: what was wrong with a query. Reading never fails; a reader
reports each problem and goes on with what it could make out.

A diagnostic has a key and parameters, from which a message in any language
can be made, and a message in English.
-/
import InlineQuery.Feature
import InlineQuery.Item

namespace InlineQuery

/-- A problem in the text of a query. -/
inductive Diagnostic
  /-- An atom without any condition in it. -/
  | badAtom
  /-- Text behind a single bar inside an atom. -/
  | trailingContent (content : Text)
  /-- A chunk between atoms that means nothing there. -/
  | unexpectedPart (part : Text)
  /-- A chunk where `]]` should have stood. -/
  | misplacedSymbol (symbol : Text)
  /-- The query ended inside an atom. -/
  | missingClosingBrackets
  /-- A condition that needs a feature that is not permitted. -/
  | featureNotPermitted (feature : Feature) (fragment : Text)
  /-- A closing delimiter that does not fit the block it would close, or a
  block that was never closed. -/
  | mismatchedDelimiter (expected found : Option Text)
  /-- A subquery, or an alternative of one, without any condition in it. -/
  | emptySubquery
  /-- A subquery where there can be none. -/
  | misplacedSubquery
  /-- A subquery, or a chain, on a property whose values are not pages. -/
  | valueSubquery (property : Text)
  /-- A property condition without a value. -/
  | missingValue (property : Text)
  /-- Text that cannot be the name of a property. -/
  | invalidProperty (name : Text)
  /-- Text that is no value of the type asked for. -/
  | invalidValue (value : Text) (valueType : ValueType)
deriving Repr, DecidableEq

namespace Diagnostic

/-- The key of the message, by which it is found in any language. -/
def key : Diagnostic → Text
  | .badAtom => "smw_badqueryatom".toList
  | .trailingContent _ => "smw_unexpectedpart".toList
  | .unexpectedPart _ => "smw_unexpectedpart".toList
  | .misplacedSymbol _ => "smw_misplacedsymbol".toList
  | .missingClosingBrackets => "smw_noclosingbrackets".toList
  | .featureNotPermitted .conjunction _ => "smw_noconjunctions".toList
  | .featureNotPermitted .disjunction _ => "smw_nodisjunctions".toList
  | .featureNotPermitted _ _ => "smw_noqueryfeature".toList
  | .mismatchedDelimiter _ (some _) => "smw_toomanyclosing".toList
  | .mismatchedDelimiter _ none => "smw_noclosingbrackets".toList
  | .emptySubquery => "smw_emptysubquery".toList
  | .misplacedSubquery => "smw_misplacedsubquery".toList
  | .valueSubquery _ => "smw_valuesubquery".toList
  | .missingValue _ => "smw_propvalueproblem".toList
  | .invalidProperty _ => "smw_noproperty".toList
  | .invalidValue _ .number => "smw_nofloat".toList
  | .invalidValue _ .page => "smw_notitle".toList
  | .invalidValue _ .text => "smw_emptystring".toList

/-- A fragment of a query with its opening brackets escaped, so that a
message that quotes it is not taken for a query itself. -/
def escapeBrackets (fragment : Text) : Text :=
  fragment.flatMap fun c => if c = '[' then "&#x005B;".toList else [c]

/-- The parameters of the message. -/
def params : Diagnostic → List Text
  | .badAtom => []
  | .trailingContent content => [content]
  | .unexpectedPart part => [part]
  | .misplacedSymbol symbol => [symbol]
  | .missingClosingBrackets => []
  | .featureNotPermitted _ fragment => [escapeBrackets fragment]
  | .mismatchedDelimiter _ (some found) => [found]
  | .mismatchedDelimiter expected none => expected.toList
  | .emptySubquery => []
  | .misplacedSubquery => []
  | .valueSubquery property => [property]
  | .missingValue property => [property]
  | .invalidProperty name => [name]
  | .invalidValue value _ => [value]

/-- The message about delimiters that do not fit. -/
def mismatchMessage : Option Text → Option Text → Text
  | some expected, some found =>
    "found \"".toList ++ found ++ "\" where \"".toList ++ expected ++ "\" was expected".toList
  | none, some found =>
    "the closing \"".toList ++ found ++ "\" has no opening counterpart".toList
  | some expected, none =>
    "the query ended before the closing \"".toList ++ expected ++ "\"".toList
  | none, none => "unbalanced delimiters in the query".toList

/-- The message in English. -/
def message : Diagnostic → Text
  | .badAtom => "a part of the query could not be understood".toList
  | .trailingContent part =>
    "the part \"".toList ++ part ++ "\" of the query was not understood".toList
  | .unexpectedPart part =>
    "the part \"".toList ++ part ++ "\" of the query was not understood".toList
  | .misplacedSymbol symbol =>
    "the symbol \"".toList ++ symbol ++ "\" was used in a place where it is not useful".toList
  | .missingClosingBrackets =>
    "some use of \"[[\" in the query was not closed by a matching \"]]\"".toList
  | .featureNotPermitted feature fragment =>
    "the query feature ".toList ++ feature.name ++ " is not supported here, so \"".toList ++
      fragment ++ "\" was dropped".toList
  | .mismatchedDelimiter expected found => mismatchMessage expected found
  | .emptySubquery => "a subquery has no valid condition".toList
  | .misplacedSubquery =>
    "a subquery was used in a place where no subqueries are allowed".toList
  | .valueSubquery property =>
    "subqueries are not supported for values of property \"".toList ++ property ++ "\"".toList
  | .missingValue property =>
    "the condition on property \"".toList ++ property ++ "\" has no value".toList
  | .invalidProperty name =>
    "\"".toList ++ name ++ "\" cannot be used as a property name".toList
  | .invalidValue value valueType =>
    "\"".toList ++ value ++ "\" is not a valid ".toList ++ valueType.name ++ " value".toList

end Diagnostic

end InlineQuery
