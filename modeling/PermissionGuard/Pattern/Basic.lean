import PermissionGuard.Text.Utf8

/-!
Patterns that are searched for in texts. A search follows all ways to match at once: after every
character it keeps the patterns that the rest of the text has to start with.
-/

namespace PermissionGuard

/-- A set of characters, as ranges of code points or what is outside of them. -/
structure CharSet where
  ranges : List (Nat × Nat)
  negated : Bool := false
  deriving DecidableEq, Repr, Inhabited

def CharSet.contains (set : CharSet) (c : Char) : Bool :=
  set.ranges.any (fun (first, last) => first ≤ c.toNat && c.toNat ≤ last) != set.negated

/-- Conditions on a place between two characters. -/
inductive Assertion where
  | textStart
  | textEnd
  | lineStart
  | lineEnd
  | wordBoundary
  | noWordBoundary
  deriving DecidableEq, Repr

/-- A place in a text: the characters before and after it. -/
structure Place where
  before : Option Char
  after : Option Char

/-- The characters of words: ASCII letters, digits and the underscore. -/
def isWordLetter (c : Char) : Bool := c.isAlphanum || c == '_'

def Assertion.holds (place : Place) : Assertion → Bool
  | .textStart => place.before.isNone
  | .textEnd => place.after.isNone
  | .lineStart => place.before.all (· == '\n')
  | .lineEnd => place.after.all (· == '\n')
  | .wordBoundary => place.before.any isWordLetter != place.after.any isWordLetter
  | .noWordBoundary => place.before.any isWordLetter == place.after.any isWordLetter

inductive Pattern where
  | empty
  | chars (set : CharSet)
  | assertion (condition : Assertion)
  | seq (first second : Pattern)
  | either (first second : Pattern)
  /-- At least `least` repetitions, and at most `most` if it is given. -/
  | repeated (body : Pattern) (least : Nat) (most : Option Nat)
  deriving DecidableEq, Repr, Inhabited

namespace Pattern

/-- Whether a pattern matches the empty text at a place. -/
def nullable (place : Place) : Pattern → Bool
  | .empty => true
  | .chars _ => false
  | .assertion condition => condition.holds place
  | .seq first second => first.nullable place && second.nullable place
  | .either first second => first.nullable place || second.nullable place
  | .repeated body least _ => least == 0 || body.nullable place

/-- Two patterns one after the other. -/
def andThen : Pattern → Pattern → Pattern
  | .empty, second => second
  | first, second => .seq first second

/-- What may have to follow once a pattern has matched the character after a place. Repetitions that
match nothing at the place count as done. -/
def after (place : Place) (c : Char) : Pattern → List Pattern
  | .empty => []
  | .chars set => if set.contains c then [.empty] else []
  | .assertion _ => []
  | .seq first second =>
      (first.after place c).map (·.andThen second)
        ++ (if first.nullable place then second.after place c else [])
  | .either first second => first.after place c ++ second.after place c
  | .repeated body least most =>
      if most = some 0 then []
      else
        let least := if body.nullable place then 0 else least - 1
        (body.after place c).map (·.andThen (.repeated body least (most.map (· - 1))))

/-- Searches for a pattern with the ways that are under way. -/
def searchFrom (pattern : Pattern) : List Pattern → Option Char → List Char → Bool
  | active, before, [] =>
      (pattern :: active).any (·.nullable ⟨before, none⟩)
  | active, before, c :: rest =>
      let ways := (pattern :: active).eraseDups
      let place : Place := ⟨before, some c⟩
      ways.any (·.nullable place)
        || searchFrom pattern (ways.flatMap (·.after place c)) (some c) rest

/-- Whether a pattern matches anywhere in a text. -/
def occursIn (pattern : Pattern) (t : Text) : Bool := searchFrom pattern [] none t.chars

end Pattern

end PermissionGuard
