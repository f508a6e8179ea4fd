import WordFinder.Condition

/-!
# Search specifications

A search asks for the words that meet all of its conditions, or at least one of them. Conditions
that were saved when their kind had another meaning are upgraded to what they meant.
-/
set_option autoImplicit false

namespace WordFinder

def currentVersion : Nat := 1

structure SearchSpec where
  conditions : List Condition := []
  /-- Whether a word has to meet all conditions; if not, one is enough. -/
  conjunction : Bool := true
  version : Nat := currentVersion
deriving DecidableEq, Repr

/-- A change of meaning of one kind of condition after a version. -/
structure Upgrade where
  fromVersion : Nat
  kind : ConditionKind
  change : Condition → Condition

namespace Upgrade

/-- In version 0 a probability order was the rank among the words found. -/
def probabilityOrderLimit : Upgrade where
  fromVersion := 0
  kind := .probabilityOrder
  change c := { c with kind := .probabilityOrderLimit, legacy := true }

def all : List Upgrade := [probabilityOrderLimit]

def apply (u : Upgrade) (c : Condition) : Condition :=
  if c.kind = u.kind then u.change c else c

def applyAll (version : Nat) (conditions : List Condition) : List Condition :=
  (all.filter (·.fromVersion == version)).foldl (fun cs u => cs.map u.apply) conditions

end Upgrade

namespace SearchSpec

def allOf (conditions : List Condition) : SearchSpec := { conditions }

/-- The search as the current version expresses it. A search of a later version stays as it is. -/
def upgraded (spec : SearchSpec) : SearchSpec where
  conditions :=
    (List.range' spec.version (currentVersion - spec.version)).foldl
      (fun conditions version => Upgrade.applyAll version conditions) spec.conditions
  conjunction := spec.conjunction
  version := max spec.version currentVersion

def text (spec : SearchSpec) : String :=
  (if spec.conjunction then " AND " else " OR ").intercalate (spec.conditions.map Condition.text)

end SearchSpec

end WordFinder
