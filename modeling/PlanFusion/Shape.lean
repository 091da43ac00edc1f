/-!
# PlanFusion — shapes of plans

The shape of a plan is what remains of it without its callables: how its operators are joined,
and of each operator its form with its count. Everything a plan prints, and every choice that
fusion makes, depends on the shape alone.

* `Form` — an operator without its callables;
* `Kind` — what fusion looks at: the form without its count, or `joined` for two plans in
  sequence;
* `Kind.fuse?` — the fusion table;
* `Shape` — a tree of forms, with its text, its kind and its number of operators.
-/

namespace PlanFusion

/-- An operator without its callables. -/
inductive Form where
  | identity
  | map
  | filter
  | filterMap
  | flatMap
  | take (n : Nat)
  | drop (n : Nat)
  | mapAccum
  deriving DecidableEq, Repr

/-- What fusion looks at in a plan: its only operator, or that it has more than one. -/
inductive Kind where
  | identity
  | map
  | filter
  | filterMap
  | flatMap
  | take
  | drop
  | mapAccum
  | joined
  deriving DecidableEq, Repr

namespace Kind

/-- The name of a kind in a log record. -/
def text : Kind → String
  | .identity => "Identity"
  | .map => "Map"
  | .filter => "Filter"
  | .filterMap => "FilterMap"
  | .flatMap => "FlatMap"
  | .take => "Take"
  | .drop => "Drop"
  | .mapAccum => "StatefulMap"
  | .joined => "Combine"

/-- The fusion table: the kind of the one plan that two neighbours become, if they become one.
Operators that count or accumulate are in no row, because what they do to an element depends on
how many came before it. -/
def fuse? : Kind → Kind → Option Kind
  | .identity, right => some right
  | left, .identity => some left
  | .filter, .filter => some .filter
  | .map, .map => some .map
  | .map, .filter => some .filterMap
  | .map, .flatMap => some .flatMap
  | .filter, .map => some .filterMap
  | .filterMap, .map => some .filterMap
  | .filterMap, .filter => some .filterMap
  | .filter, .filterMap => some .filterMap
  | .filterMap, .flatMap => some .flatMap
  | _, _ => none

theorem identity_fuse? (k : Kind) : Kind.identity.fuse? k = some k := by
  cases k <;> rfl

theorem fuse?_identity (k : Kind) : k.fuse? .identity = some k := by
  cases k <;> rfl

/-- Beside a join, the table has rows for identities only. -/
theorem joined_fuse? {k : Kind} (h : k ≠ .identity) : Kind.joined.fuse? k = none := by
  cases k <;> simp_all [fuse?]

/-- Only two identities become an identity. -/
theorem fuse?_eq_some_identity_iff {k l : Kind} :
    k.fuse? l = some .identity ↔ k = .identity ∧ l = .identity := by
  cases k <;> cases l <;> simp [fuse?]

end Kind

/-- The kind of an operator is its form without the count. -/
def Form.kind : Form → Kind
  | .identity => .identity
  | .map => .map
  | .filter => .filter
  | .filterMap => .filterMap
  | .flatMap => .flatMap
  | .take _ => .take
  | .drop _ => .drop
  | .mapAccum => .mapAccum

theorem Form.kind_eq_identity_iff {form : Form} : form.kind = .identity ↔ form = .identity := by
  cases form <;> simp [kind]

/-- A form is written as its kind, with a count in brackets. -/
def Form.text : Form → String
  | .take n => Kind.take.text ++ "[" ++ toString n ++ "]"
  | .drop n => Kind.drop.text ++ "[" ++ toString n ++ "]"
  | form => form.kind.text

/-- How a plan is put together. -/
inductive Shape where
  | operator (form : Form)
  | seq (left right : Shape)
  deriving DecidableEq, Repr

namespace Shape

/-- The kind of a plan of this shape. -/
def kind : Shape → Kind
  | operator form => form.kind
  | seq _ _ => .joined

/-- The operators from left to right. -/
def forms : Shape → List Form
  | operator form => [form]
  | seq left right => left.forms ++ right.forms

/-- The number of operators. -/
def leaves : Shape → Nat
  | operator _ => 1
  | seq left right => left.leaves + right.leaves

/-- The text of a plan: every join shows both of its sides. -/
def text : Shape → String
  | operator form => form.text
  | seq left right => Kind.joined.text ++ "(" ++ left.text ++ ", " ++ right.text ++ ")"

@[simp] theorem length_forms (s : Shape) : s.forms.length = s.leaves := by
  induction s with
  | operator form => rfl
  | seq left right ihl ihr => simp [forms, leaves, ihl, ihr]

theorem kind_eq_identity_iff {s : Shape} : s.kind = .identity ↔ s = .operator .identity := by
  cases s with
  | operator form => simp [kind, Form.kind_eq_identity_iff]
  | seq left right => simp [kind]

theorem leaves_pos (s : Shape) : 0 < s.leaves := by
  induction s with
  | operator form => exact Nat.one_pos
  | seq left right ihl ihr => exact Nat.add_pos_left ihl _

end Shape

end PlanFusion
