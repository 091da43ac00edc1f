import PlanFusion.Machine.Basic
import PlanFusion.Proofs.Machine.Passes

/-!
# PlanFusion — machines that answer alike

Two machines with different states may still answer alike. A relation of their states that every
step preserves, and from which both give the same reply, is a *bisimulation*. An observer sees
replies and never states, so that processes in related states are *alike* to it.

Likeness is itself a bisimulation, because a machine leaves nothing to chance. This is why two
processes in sequence may each be replaced by one that is alike.

* `Machine.Bisim` — a bisimulation, up to a relation of the worlds;
* `bisim_refl`, `Bisim.symm`, `Bisim.trans` — bisimulations of machines in one world compose;
* `bisim_seq` — bisimulations of two machines give one of the machines in sequence;
* `Process.Alike`, `alike_of_bisim`, `bisim_alike` — likeness, and that the bisimulations are
  exactly the relations inside it;
* `alike_seq`, `feed_eq_of_alike` — what likeness is good for.
-/

namespace PlanFusion

namespace Machine

variable {ω τ α β γ : Type} {W : ω → τ → Prop}

/-- From states that `S` relates the two machines answer alike and reach such states again. -/
def Bisim (W : ω → τ → Prop) (M : Machine ω α β) (N : Machine τ α β)
    (S : M.State → N.State → Prop) : Prop :=
  ∀ x, Action.Agree Eq (Beside S W) (M.step x) (N.step x)

/-- Machines that remember nothing answer alike if their actions do. -/
theorem bisim_stateless {f : α → Action ω (Reply β)} {g : α → Action τ (Reply β)}
    (h : ∀ x, Action.Agree Eq W (f x) (g x)) :
    Bisim W (stateless f) (stateless g) fun _ _ => True := by
  intro x
  exact Action.agree_onSecond _ (h x)

/-- Machines that move alike answer alike from the same state. -/
theorem bisim_ofTransition {σ : Type} {f : σ → α → Action ω (σ × Reply β)}
    {g : σ → α → Action τ (σ × Reply β)} (h : ∀ s x, Action.Agree Eq W (f s x) (g s x)) :
    Bisim W (ofTransition f) (ofTransition g) Eq := by
  rintro x ⟨s, w⟩ ⟨s', v⟩ ⟨hs, hW⟩
  dsimp only at hs hW
  subst hs
  simp only [ofTransition]
  obtain ⟨e, w', v', l, hW', hf, hg⟩ | ⟨q, q', w', v', l, hq, hW', hf, hg⟩ :=
    (h s x w v hW).result_cases
  · -- a failed transition leaves the state as it was
    rw [hf, hg]
    exact ⟨.error e, ⟨rfl, hW'⟩, rfl⟩
  · subst hq
    rw [hf, hg]
    exact ⟨.ok rfl, ⟨rfl, hW'⟩, rfl⟩

section Laws

variable {M N O : Machine ω α β} {S : M.State → N.State → Prop} {T : N.State → O.State → Prop}

theorem bisim_refl (M : Machine ω α β) : Bisim Eq M M Eq := by
  rintro x ⟨s, w⟩ ⟨_, _⟩ ⟨rfl, rfl⟩
  exact ⟨resultRel_eq_iff.mpr rfl, ⟨rfl, rfl⟩, rfl⟩

theorem Bisim.symm (h : Bisim Eq M N S) : Bisim Eq N M fun t s => S s t := by
  rintro x ⟨t, w⟩ ⟨s, _⟩ ⟨hst, rfl⟩
  have hback := (h x (s, w) (t, w) ⟨hst, rfl⟩).symm
  exact hback.mono (fun _ _ h => h.symm) fun _ _ h => ⟨h.1, h.2.symm⟩

theorem Bisim.trans (h : Bisim Eq M N S) (h' : Bisim Eq N O T) :
    Bisim Eq M O fun s u => ∃ t, S s t ∧ T t u := by
  rintro x ⟨s, w⟩ ⟨u, _⟩ ⟨⟨t, hst, htu⟩, rfl⟩
  have hboth := (h x (s, w) (t, w) ⟨hst, rfl⟩).comp (h' x (t, w) (u, w) ⟨htu, rfl⟩)
  refine hboth.mono ?_ ?_
  · rintro r _ ⟨q, rfl, rfl⟩
    rfl
  · rintro v v' ⟨k, hleft, hright⟩
    exact ⟨⟨k.1, hleft.1, hright.1⟩, hleft.2.trans hright.2⟩

/-- The relation of the states may be put in other words. -/
theorem Bisim.of_iff {S' : M.State → N.State → Prop} (h : Bisim Eq M N S)
    (hS : ∀ s t, S' s t ↔ S s t) : Bisim Eq M N S' := by
  have heq : S' = S := funext fun s => funext fun t => propext (hS s t)
  rw [heq]
  exact h

end Laws

section Seq

variable {L : Machine ω α β} {L' : Machine τ α β} {R : Machine ω β γ} {R' : Machine τ β γ}
  {S : L.State → L'.State → Prop} {T : R.State → R'.State → Prop}

theorem bisim_collect (h : Bisim W R R' T) (ys : List β) :
    Action.Agree Eq (Beside T W) (R.collect ys) (R'.collect ys) := by
  intro w v hW
  exact (feed_agree h ys hW).toOutcome

theorem bisim_follow (h : Bisim W R R' T) (r : Reply β) :
    Action.Agree Eq (Beside T W) (R.follow r) (R'.follow r) := by
  cases r with
  | one y => exact h y
  | many ys =>
    -- the whole expansion is one pass of the right machine
    refine Action.agree_bind (bisim_collect h ys) fun zs zs' hzs => ?_
    rw [hzs]
    exact Action.agree_pure rfl
  | skip => exact Action.agree_pure rfl
  | abort => exact Action.agree_pure rfl

theorem bisim_seq (hL : Bisim W L L' S) (hR : Bisim W R R' T) :
    Bisim W (L.seq R) (L'.seq R') (Beside S T) := by
  intro x
  refine Action.agree_bind (Action.agree_onOuter (hL x)) fun r r' hr => ?_
  rw [hr]
  exact Action.agree_onInner (bisim_follow hR r')

end Seq

end Machine

namespace Process

variable {ω α β γ : Type}

/-- No observer can tell the two processes apart, whatever it hands to them. -/
def Alike (p q : Process ω α β) : Prop :=
  ∀ calls, p.offers calls = q.offers calls

theorem Alike.offer {p q : Process ω α β} (h : p.Alike q) (x : α) (w : ω) :
    (p.offer x w).1 = (q.offer x w).1 ∧ (p.offer x w).2.Alike (q.offer x w).2 := by
  constructor
  · have hone := h [(x, w)]
    simp only [offers] at hone
    exact (List.cons.inj hone).1
  · intro calls
    have hmore := h ((x, w) :: calls)
    simp only [offers] at hmore
    exact (List.cons.inj hmore).2

/-- Processes in states that a bisimulation relates are alike. -/
theorem alike_of_bisim {M N : Machine ω α β} {S : M.State → N.State → Prop}
    (h : Machine.Bisim Eq M N S) {s : M.State} {t : N.State} (hst : S s t) :
    Alike { machine := M, state := s } { machine := N, state := t } := by
  intro calls
  -- induction on the calls, from any related states, because each call moves them
  induction calls generalizing s t with
  | nil => rfl
  | cons call calls ih =>
    obtain ⟨x, w⟩ := call
    obtain ⟨hresult, ⟨hstate, hworld⟩, hlog⟩ := h x (s, w) (t, w) ⟨hst, rfl⟩
    simp only [offers, offer]
    rw [ih hstate]
    congr 1
    exact Outcome.ext (resultRel_eq_iff.mp hresult) hworld hlog

/-- Likeness relates states that answer alike and stay alike. -/
theorem bisim_alike (M N : Machine ω α β) :
    Machine.Bisim Eq M N fun s t =>
      Alike { machine := M, state := s } { machine := N, state := t } := by
  rintro x ⟨s, w⟩ ⟨t, v⟩ ⟨hst, hW⟩
  dsimp only at hst hW
  subst hW
  obtain ⟨hnow, hlater⟩ := hst.offer x w
  refine ⟨?_, ⟨hlater, ?_⟩, ?_⟩
  · exact resultRel_eq_iff.mpr (congrArg Outcome.result hnow)
  · exact congrArg Outcome.world hnow
  · exact congrArg Outcome.log hnow

theorem alike_seq {p p' : Process ω α β} {q q' : Process ω β γ} (hp : p.Alike p')
    (hq : q.Alike q') : (p.seq q).Alike (p'.seq q') :=
  alike_of_bisim (Machine.bisim_seq (bisim_alike p.machine p'.machine)
    (bisim_alike q.machine q'.machine)) ⟨hp, hq⟩

/-- A pass cannot tell alike processes apart either. -/
theorem feed_eq_of_alike {p q : Process ω α β} (h : p.Alike q) (xs : List α) (w : ω) :
    (feed p.machine.step xs (p.state, w)).mapWorld Prod.snd =
      (feed q.machine.step xs (q.state, w)).mapWorld Prod.snd := by
  have hfeed := feed_agree (bisim_alike p.machine q.machine) xs (w := (p.state, w))
    (v := (q.state, w)) ⟨h, rfl⟩
  rw [← Pass.agree_eq_iff]
  exact ⟨hfeed.ending, hfeed.world.2, hfeed.log, hfeed.out, hfeed.pulled, hfeed.expansions⟩

end Process

end PlanFusion
