import Mathlib.Data.List.Infix
import PlanFusion.Plan.Basic

/-!
# PlanFusion — the text of a plan can be read in one way only

Users and tests look at the text of a plan to see whether it was fused. This is sound only if the
text leaves no doubt about the plan. A form may be written like the beginning of another one
(`Filter` and `FilterMap`), and the comma between two plans looks the same at every depth, so what
has to be shown is where a text ends inside a longer one. A form ends where the first bracket or
comma stands, and a join is known by its opening bracket, which never stands behind a form.

* `append_inj_of_breaks` — a word ends where the first break stands;
* `Form.text_injective` — forms with the same text are the same, counts included;
* `Shape.text_append_inj` — a text ends in one place only, whatever the longer text goes on with;
* `occurrences`, `Shape.occurrences_text` — how often a text contains another one, and that joins
  can be counted in this way;
* `Plan.text_unambiguous` — the result.
-/

namespace PlanFusion

-- ---------------------------------------------------------------------------
-- Words
-- ---------------------------------------------------------------------------

/-- Two texts that begin with a word, and then either end or go on with a break, are the same only
if the words are the same and what stands behind them. -/
theorem append_inj_of_breaks {B : Char → Prop} {l l' a b : List Char} (hl : ∀ c ∈ l, ¬ B c)
    (hl' : ∀ c ∈ l', ¬ B c) (ha : ∀ c ∈ a.head?, B c) (hb : ∀ c ∈ b.head?, B c)
    (h : l ++ a = l' ++ b) : l = l' ∧ a = b := by
  induction l generalizing l' with
  | nil =>
    cases l' with
    | nil => exact ⟨rfl, h⟩
    | cons d l' =>
      rw [List.nil_append] at h
      rw [h] at ha
      exact absurd (ha d rfl) (hl' d (List.mem_cons_self ..))
  | cons c l ih =>
    cases l' with
    | nil =>
      rw [List.nil_append] at h
      rw [← h] at hb
      exact absurd (hb c rfl) (hl c (List.mem_cons_self ..))
    | cons d l' =>
      obtain ⟨hcd, hrest⟩ := List.cons.inj h
      obtain ⟨hwords, hab⟩ := ih (fun x hx => hl x (List.mem_cons_of_mem _ hx))
        (fun x hx => hl' x (List.mem_cons_of_mem _ hx)) hrest
      exact ⟨by rw [hcd, hwords], hab⟩

-- ---------------------------------------------------------------------------
-- Forms
-- ---------------------------------------------------------------------------

theorem Kind.text_injective {k l : Kind} (h : k.text = l.text) : k = l := by
  cases k <;> cases l <;> first | rfl | (simp [text] at h)

namespace Form

/-- What a form shows of its count. -/
def bracket : Form → List Char
  | .take n | .drop n => '[' :: (Nat.toDigits 10 n ++ [']'])
  | _ => []

theorem toList_text (form : Form) : form.text.toList = form.kind.text.toList ++ form.bracket := by
  cases form <;> simp [text, kind, bracket]

/-- Two counts that are written alike are the same. -/
theorem count_injective {m n : Nat}
    (h : '[' :: (Nat.toDigits 10 m ++ [']']) = '[' :: (Nat.toDigits 10 n ++ [']'])) : m = n := by
  have hdigits : Nat.toDigits 10 m = Nat.toDigits 10 n :=
    List.append_cancel_right (List.cons.inj h).2
  calc
    m = Nat.ofDigitChars 10 (Nat.toDigits 10 m) 0 := Nat.ofDigitChars_ten_toDigits.symm
    _ = Nat.ofDigitChars 10 (Nat.toDigits 10 n) 0 := by rw [hdigits]
    _ = n := Nat.ofDigitChars_ten_toDigits

theorem eq_of_kind_of_bracket {form form' : Form} (hkind : form.kind = form'.kind)
    (hbracket : form.bracket = form'.bracket) : form = form' := by
  cases form <;> cases form' <;> cases hkind
  case take.take m n => exact congrArg take (count_injective hbracket)
  case drop.drop m n => exact congrArg drop (count_injective hbracket)
  all_goals rfl

/-- The name of the kind ends where the count begins. -/
theorem text_injective {form form' : Form} (h : form.text.toList = form'.text.toList) :
    form = form' := by
  have hname : ∀ form : Form, ∀ c ∈ form.kind.text.toList, ¬ c = '[' := by
    intro form
    cases form <;> simp [kind, Kind.text]
  have hbracket : ∀ form : Form, ∀ c ∈ form.bracket.head?, c = '[' := by
    intro form
    cases form <;> simp [bracket]
  rw [toList_text, toList_text] at h
  obtain ⟨hkinds, hcounts⟩ := append_inj_of_breaks (hname form) (hname form') (hbracket form)
    (hbracket form') h
  exact eq_of_kind_of_bracket (Kind.text_injective (String.toList_inj.mp hkinds)) hcounts

/-- What stands around and between the texts of two plans is in no form, and neither is the first
character of a join. -/
theorem not_mem_text {c : Char} (hc : c ∈ ['(', ')', ',', 'C']) (form : Form) :
    c ∉ form.text.toList := by
  have hchars : c = '(' ∨ c = ')' ∨ c = ',' ∨ c = 'C' := by simpa using hc
  have hletter : c ∉ form.kind.text.toList := by
    obtain rfl | rfl | rfl | rfl := hchars
    all_goals cases form <;> simp [kind, Kind.text]
  have hopen : c ∉ ['[', ']'] := by
    obtain rfl | rfl | rfl | rfl := hchars
    all_goals decide
  have hdigit : c.isDigit = false := by
    obtain rfl | rfl | rfl | rfl := hchars
    all_goals rfl
  have hcount : ∀ n, c ∉ '[' :: (Nat.toDigits 10 n ++ [']']) := by
    intro n hmem
    have hcases : c ∈ ['[', ']'] ∨ c ∈ Nat.toDigits 10 n := by
      simp only [List.mem_cons, List.mem_append] at hmem ⊢
      tauto
    rcases hcases with h | h
    · exact hopen h
    · have hyes : c.isDigit = true := Nat.isDigit_of_mem_toDigits (by decide) (by decide) h
      rw [hdigit] at hyes
      cases hyes
  rw [toList_text, List.mem_append, not_or]
  refine ⟨hletter, ?_⟩
  cases form with
  | take n | drop n => exact hcount n
  | _ => exact List.not_mem_nil

end Form

-- ---------------------------------------------------------------------------
-- Shapes
-- ---------------------------------------------------------------------------

/-- Brackets and commas stand around and between the texts of plans. -/
def IsBreak (c : Char) : Prop :=
  c ∈ ['(', ')', ',']

/-- What may stand behind the text of a plan inside a longer one. -/
def EndsPlan (rest : List Char) : Prop :=
  ∀ c ∈ rest.head?, c = ',' ∨ c = ')'

theorem endsPlan_nil : EndsPlan [] := by
  intro c hc
  cases hc

theorem EndsPlan.isBreak {rest : List Char} (h : EndsPlan rest) : ∀ c ∈ rest.head?, IsBreak c := by
  intro c hc
  obtain rfl | rfl := h c hc
  · simp [IsBreak]
  · simp [IsBreak]

theorem Form.not_isBreak (form : Form) : ∀ c ∈ form.text.toList, ¬ IsBreak c := by
  intro c hc hbreak
  refine form.not_mem_text ?_ hc
  simp only [IsBreak, List.mem_cons] at hbreak ⊢
  tauto

namespace Shape

theorem toList_text_seq (left right : Shape) (rest : List Char) :
    (seq left right).text.toList ++ rest = "Combine".toList ++
      '(' :: (left.text.toList ++ ',' :: ' ' :: (right.text.toList ++ ')' :: rest)) := by
  simp [text, Kind.text]

/-- No form is written like a join: behind a form there is no opening bracket. -/
theorem text_operator_ne_seq (form : Form) (left right : Shape) {a : List Char} (ha : EndsPlan a)
    (b : List Char) :
    (operator form).text.toList ++ a ≠ (seq left right).text.toList ++ b := by
  intro h
  rw [toList_text_seq] at h
  have hname : ∀ c ∈ "Combine".toList, ¬ IsBreak c := by simp [IsBreak]
  obtain ⟨-, hrest⟩ := append_inj_of_breaks form.not_isBreak hname ha.isBreak
    (fun c hc => by cases hc; simp [IsBreak]) h
  have hbracket := ha '(' (by rw [hrest]; rfl)
  revert hbracket
  decide

/-- The text of a plan ends in one place only, whatever it is that goes on behind it. -/
theorem text_append_inj {s t : Shape} {a b : List Char} (ha : EndsPlan a) (hb : EndsPlan b)
    (h : s.text.toList ++ a = t.text.toList ++ b) : s = t ∧ a = b := by
  induction s generalizing t a b with
  | operator form =>
    cases t with
    | operator form' =>
      obtain ⟨hforms, hrest⟩ := append_inj_of_breaks form.not_isBreak form'.not_isBreak
        ha.isBreak hb.isBreak h
      exact ⟨congrArg operator (Form.text_injective hforms), hrest⟩
    | seq left' right' => exact absurd h (text_operator_ne_seq form left' right' ha b)
  | seq left right ihl ihr =>
    cases t with
    | operator form' => exact absurd h.symm (text_operator_ne_seq form' left right hb a)
    | seq left' right' =>
      rw [toList_text_seq, toList_text_seq] at h
      have hinside := (List.cons.inj (List.append_cancel_left h)).2
      obtain ⟨hl, hbehind⟩ := ihl (fun c hc => .inl (by cases hc; rfl))
        (fun c hc => .inl (by cases hc; rfl)) hinside
      have hbehind' := (List.cons.inj (List.cons.inj hbehind).2).2
      obtain ⟨hr, hrest⟩ := ihr (fun c hc => .inr (by cases hc; rfl))
        (fun c hc => .inr (by cases hc; rfl)) hbehind'
      exact ⟨by rw [hl, hr], (List.cons.inj hrest).2⟩

theorem text_injective {s t : Shape} (h : s.text = t.text) : s = t := by
  have hlists : s.text.toList ++ [] = t.text.toList ++ [] := by rw [h]
  exact (text_append_inj endsPlan_nil endsPlan_nil hlists).1

end Shape

-- ---------------------------------------------------------------------------
-- Counting joins
-- ---------------------------------------------------------------------------

/-- How often a text contains a pattern: at how many of its places the pattern can be read. -/
def occurrences (pattern text : List Char) : Nat :=
  text.tails.countP pattern.isPrefixOf

theorem occurrences_cons (pattern : List Char) (c : Char) (text : List Char) :
    occurrences pattern (c :: text) =
      occurrences pattern text + if pattern <+: c :: text then 1 else 0 := by
  simp [occurrences, List.countP_cons]

/-- A pattern cannot be read where its first character does not stand. -/
theorem occurrences_append {pattern word : List Char} {first : Char}
    (hfirst : pattern.head? = some first) (h : first ∉ word) (rest : List Char) :
    occurrences pattern (word ++ rest) = occurrences pattern rest := by
  obtain ⟨later, rfl⟩ := List.head?_eq_some_iff.mp hfirst
  induction word with
  | nil => rfl
  | cons c word ih =>
    rw [List.mem_cons, not_or] at h
    have hno : ¬ first :: later <+: c :: (word ++ rest) := by
      intro hprefix
      exact h.1 (List.cons_prefix_cons.mp hprefix).1
    rw [List.cons_append, occurrences_cons, if_neg hno, Nat.add_zero, ih h.2]

theorem head?_combine : "Combine(".toList.head? = some 'C' := by decide

/-- The text of a join begins with an occurrence, and the rest of its name has none. -/
theorem occurrences_combine (rest : List Char) :
    occurrences "Combine(".toList ("Combine".toList ++ '(' :: rest) =
      occurrences "Combine(".toList rest + 1 := by
  have htext : "Combine".toList ++ '(' :: rest = 'C' :: ("ombine(".toList ++ rest) := by simp
  have hhere : "Combine(".toList <+: 'C' :: ("ombine(".toList ++ rest) := ⟨rest, by simp⟩
  have hname : 'C' ∉ "ombine(".toList := by decide
  rw [htext, occurrences_cons, if_pos hhere, occurrences_append head?_combine hname]

/-- Every join is an occurrence, and there are no others. -/
theorem Shape.occurrences_text (s : Shape) (rest : List Char) :
    occurrences "Combine(".toList (s.text.toList ++ rest) + 1 =
      occurrences "Combine(".toList rest + s.leaves := by
  induction s generalizing rest with
  | operator form =>
    have hform : 'C' ∉ form.text.toList := form.not_mem_text (by decide)
    exact congrArg (· + 1) (occurrences_append head?_combine hform rest)
  | seq left right ihl ihr =>
    have hl := ihl (',' :: ' ' :: (right.text.toList ++ ')' :: rest))
    have hcomma : occurrences "Combine(".toList (',' :: ' ' :: (right.text.toList ++ ')' :: rest)) =
        occurrences "Combine(".toList (right.text.toList ++ ')' :: rest) :=
      occurrences_append head?_combine (by decide : 'C' ∉ [',', ' ']) _
    have hr := ihr (')' :: rest)
    have hclose : occurrences "Combine(".toList (')' :: rest) =
        occurrences "Combine(".toList rest :=
      occurrences_append head?_combine (by decide : 'C' ∉ [')']) _
    rw [toList_text_seq, occurrences_combine, leaves]
    omega

-- ---------------------------------------------------------------------------
-- Plans
-- ---------------------------------------------------------------------------

namespace Plan

/-- **The text of a plan is unambiguous.** Two plans, of whatever element types, have the same text
exactly if they have the same shape: the same nesting of joins and the same forms with the same
counts. So the text tells the kind and the number of operators, and the latter is one more than the
number of joins that can be read in it. -/
theorem text_unambiguous {m n : Type → Type} {α β γ δ : Type} (p : Plan m α β) (q : Plan n γ δ) :
    (p.text = q.text ↔ p.shape = q.shape) ∧
    (p.text = q.text → p.kind = q.kind ∧ p.leaves = q.leaves) ∧
    p.leaves = occurrences "Combine(".toList p.text.toList + 1 := by
  refine ⟨⟨Shape.text_injective, congrArg Shape.text⟩, ?_, ?_⟩
  · intro h
    have hshape : p.shape = q.shape := Shape.text_injective h
    exact ⟨congrArg Shape.kind hshape, congrArg Shape.leaves hshape⟩
  · have hjoins := p.shape.occurrences_text []
    rw [List.append_nil] at hjoins
    exact (hjoins.trans (Nat.zero_add _)).symm

/-- Twelve elements, those of them that pass a test, and the predecessors of these. -/
def predecessors (test : Nat → Bool) : Pure Nat Nat :=
  .seq (.seq (.operator (.take 12)) (.operator (.filter test)))
    (.operator (.filterMap fun x => if x = 0 then none else some (x - 1)))

/-- The same with the joins in the other nesting. -/
def predecessorsFromRight (test : Nat → Bool) : Pure Nat Nat :=
  .seq (.operator (.take 12)) (.seq (.operator (.filter test))
    (.operator (.filterMap fun x => if x = 0 then none else some (x - 1))))

theorem text_unambiguous_predecessors :
    let evens := predecessors fun x => x % 2 == 0
    let odds := predecessors fun x => x % 2 == 1
    evens.text = odds.text ∧ evens.kind = odds.kind ∧ evens.leaves = odds.leaves ∧
    evens.text ≠ (predecessorsFromRight fun x => x % 2 == 0).text ∧
    occurrences "Combine(".toList evens.text.toList = 2 := by
  intro evens odds
  obtain ⟨hsame, hread, hjoins⟩ := evens.text_unambiguous odds
  obtain ⟨hother, -⟩ := evens.text_unambiguous (predecessorsFromRight fun x => x % 2 == 0)
  have htext : evens.text = odds.text := hsame.mpr rfl
  obtain ⟨hkind, hleaves⟩ := hread htext
  refine ⟨htext, hkind, hleaves, ?_, (Nat.succ.inj hjoins).symm⟩
  intro h
  have hshape := hother.mp h
  revert hshape
  decide

end Plan

end PlanFusion
