import TableSteward.Access.Tier
import TableSteward.Document.Issue
import TableSteward.Number
import TableSteward.Refusal

/-!
# Faults

All the ways in which an operation can end without a result: a refusal, issues in a document, or a failure
that is not answered with words of its own.
-/
set_option autoImplicit false

namespace TableSteward

inductive Fault
  | refused (r : Refusal)
  | invalid (issues : List Issue)
  /-- A date outside the calendar, or an integer beyond the binary64 numbers. -/
  | overflow
  | divisionByZero
  /-- A text or number that writes no integer, or a document with a number that is not finite. -/
  | unreadableNumber
  | notANumber
  | unknownTier (role tier : String)
  /-- Filters are compiled with neither column names nor a way to resolve them. -/
  | noColumns
  | notEncodable
  /-- A file that cannot be written. -/
  | notWritten
  | notIterable
  | notADictionary
  | missingKey (key : String)
  /-- A row or a text that ends before the item that is asked for. -/
  | tooShort
  | notAMoment
  | notAKey
  | notAName
  | notAText
  | tooDeep
  | notEncodableText
  | unanswerable
  | badReference
  | database
  /-- A refusal that came when part of the answer had been sent. -/
  | answerBegun
  | notUtf8
  | forbiddenCharacter
  | unreadableToken
  | misplacedToken
  /-- An alias of no node, or a second document. -/
  | unknownNode
  | unknownValue
  deriving DecidableEq, Repr

namespace Fault

def ofArithmetic : ArithmeticFault → Fault
  | .overflow => overflow
  | .divisionByZero => divisionByZero

def wording? : Fault → Option String
  | unknownTier role tier =>
      some ("Role '" ++ role ++ "' has unknown tier '" ++ tier ++ "'. Allowed: " ++
        choices (Tier.all.map Tier.name))
  | noColumns => some "compile_filters needs known_columns or resolve_column"
  | _ => none

end Fault

abbrev Result (α : Type) := Except Fault α

def refuse {α : Type} (r : Refusal) : Result α := .error (.refused r)

end TableSteward
