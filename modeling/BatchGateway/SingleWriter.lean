import BatchGateway.LabelledRuns
import Mathlib.Logic.Function.Basic

-- Threads over one shared state with one lock. A thread acts freely on its own
-- memory (it may look at the committed state), or runs a locked section: its
-- statements work on a private view that becomes the committed state at the end,
-- or is dropped when a statement raises.
namespace SingleWriter
open LabelledRuns
variable {τ σ μ : Type} [DecidableEq τ]

-- A statement may change the view and the thread's memory, or raise and leave
-- the memory the thread goes on with.
abbrev Statement (σ μ : Type) := σ → μ → Except μ (σ × μ)

structure Program (τ σ μ : Type) where
  free : τ → σ → μ → μ → Prop
  locked : μ → Option (List (Statement σ μ))

structure Open (τ σ μ : Type) where
  holder : τ
  view : σ
  memory : μ
  rest : List (Statement σ μ)

structure State (τ σ μ : Type) where
  committed : σ
  memory : τ → μ
  writer : Option (Open τ σ μ)

inductive Action (τ : Type) where
  | free (t : τ)
  | enter (t : τ)
  | statement (t : τ)
  | raised (t : τ)
  | commit (t : τ)

inductive Step (P : Program τ σ μ) : State τ σ μ → Action τ → State τ σ μ → Prop where
  | free {s : State τ σ μ} {t : τ} {m : μ} (outside : ∀ o, s.writer = some o → o.holder ≠ t) (acts : P.free t s.committed (s.memory t) m) :
      Step P s (.free t) {s with memory := Function.update s.memory t m}
  | enter {s : State τ σ μ} {t : τ} {statements : List (Statement σ μ)} (idle : s.writer = none)
      (ready : P.locked (s.memory t) = some statements) :
      Step P s (.enter t) {s with writer := some ⟨t,s.committed,s.memory t,statements⟩}
  | statement (held : s.writer = some ⟨t,v,m,stmt :: rest⟩) (ran : stmt v m = .ok (v',m')) :
      Step P s (.statement t) {s with writer := some ⟨t,v',m',rest⟩}
  | raised (held : s.writer = some ⟨t,v,m,stmt :: rest⟩) (ran : stmt v m = .error m') :
      Step P s (.raised t) {s with memory := Function.update s.memory t m',writer := none}
  | commit (held : s.writer = some ⟨t,v,m,[]⟩) :
      Step P s (.commit t) {s with committed := v,memory := Function.update s.memory t m,writer := none}

-- A locked section as one function of the state it starts from.
def runAll : List (Statement σ μ) → σ → μ → Except μ (σ × μ)
  | [], v, m => .ok (v,m)
  | stmt :: rest, v, m => match stmt v m with
    | .error m' => .error m'
    | .ok (v',m') => runAll rest v' m'

theorem runAll_cons_ok {stmt : Statement σ μ} {rest : List (Statement σ μ)} {v v' : σ} {m m' : μ}
    (ran : runAll (stmt :: rest) v m = .ok (v',m')) :
    ∃ w n, stmt v m = .ok (w,n) ∧ runAll rest w n = .ok (v',m') := by
  simp only [runAll] at ran
  split at ran
  · cases ran
  · rename_i w n first
    exact ⟨w,n,first,ran⟩

-- Where every statement raises with the same memory, so does the section.
theorem runAll_raises {statements : List (Statement σ μ)} {left : μ}
    (each : ∀ stmt ∈ statements, ∀ v m m', stmt v m = .error m' → m' = left) {v : σ} {m m' : μ}
    (ran : runAll statements v m = .error m') : m' = left := by
  induction statements generalizing v m with
  | nil => cases ran
  | cons stmt rest ih =>
    simp only [runAll] at ran
    split at ran
    · rename_i first
      cases ran
      exact each stmt (List.mem_cons_self ..) _ _ _ first
    · exact ih (fun other member => each other (List.mem_cons_of_mem _ member)) ran

theorem runAll_append_ok {first : List (Statement σ μ)} (rest : List (Statement σ μ)) {v v' : σ} {m m' : μ}
    (ran : runAll first v m = .ok (v',m')) : runAll (first ++ rest) v m = runAll rest v' m' := by
  induction first generalizing v m with
  | nil => cases ran; rfl
  | cons stmt more ih =>
    simp only [List.cons_append,runAll] at ran ⊢
    split at ran
    · cases ran
    · exact ih ran

-- The same threads with every locked section as a single step.
structure Cut (τ σ μ : Type) where
  committed : σ
  memory : τ → μ

inductive Whole (τ : Type) where
  | free (t : τ)
  | section (t : τ)
  | raised (t : τ)

inductive Atomic (P : Program τ σ μ) : Cut τ σ μ → Whole τ → Cut τ σ μ → Prop where
  | free (acts : P.free t s.committed (s.memory t) m) :
      Atomic P s (.free t) ⟨s.committed,Function.update s.memory t m⟩
  | section (ready : P.locked (s.memory t) = some statements)
      (ran : runAll statements s.committed (s.memory t) = .ok (v,m)) :
      Atomic P s (.section t) ⟨v,Function.update s.memory t m⟩
  | raised (ready : P.locked (s.memory t) = some statements)
      (ran : runAll statements s.committed (s.memory t) = .error m) :
      Atomic P s (.raised t) ⟨s.committed,Function.update s.memory t m⟩

def State.cut (s : State τ σ μ) : Cut τ σ μ := ⟨s.committed,s.memory⟩

-- While a section is open its holder has run a prefix of it, and nothing else
-- has moved the committed state or the holder's memory since it entered.
def Serial (P : Program τ σ μ) (s : State τ σ μ) : Prop :=
  ∀ o, s.writer = some o → ∃ statements before, P.locked (s.memory o.holder) = some statements ∧
    statements = before ++ o.rest ∧ runAll before s.committed (s.memory o.holder) = .ok (o.view,o.memory)

variable {P : Program τ σ μ} {s t : State τ σ μ}

omit [DecidableEq τ] in
theorem Serial.idle (idle : s.writer = none) : Serial P s := by
  intro o open_
  rw [idle] at open_
  cases open_

theorem serial_preserved (valid : Serial P s) (step : Step P s a t) : Serial P t := by
  cases step with
  | @free _ actor m outside acts =>
    intro o open_
    obtain ⟨statements,before,ready,parts,ran⟩ := valid o open_
    have other : o.holder ≠ actor := outside o open_
    exact ⟨statements,before,by simpa [other] using ready,parts,by simpa [other] using ran⟩
  | @enter _ _ statements idle ready =>
    intro o open_
    cases Option.some.inj open_
    exact ⟨statements,[],ready,rfl,rfl⟩
  | statement held ran =>
    intro o open_
    obtain ⟨statements,before,ready,parts,prior⟩ := valid _ held
    cases Option.some.inj open_
    refine ⟨statements,before ++ [_],ready,by rw [List.append_assoc]; exact parts,?_⟩
    rw [runAll_append_ok _ prior]
    simp [runAll,ran]
  | raised held ran => exact Serial.idle rfl
  | commit held => exact Serial.idle rfl

-- The whole section, if any, that a small step completes.
def Action.whole : Action τ → Option (Whole τ)
  | .free t => some (.free t)
  | .enter _ => none
  | .statement _ => none
  | .raised t => some (.raised t)
  | .commit t => some (.section t)

-- The thread whose free step or section a small step completes.
def Action.ends (a : Action τ) (t : τ) : Prop := a = .free t ∨ a = .raised t ∨ a = .commit t

theorem step_idle (step : Step P s a t) (inside : a.whole = none) : t.cut = s.cut := by
  cases step <;> first | rfl | cases inside

theorem step_whole (valid : Serial P s) (step : Step P s a t) (ends : a.whole = some w) :
    Atomic P s.cut w t.cut := by
  cases step with
  | free outside acts => cases ends; exact .free acts
  | enter idle ready => cases ends
  | statement held ran => cases ends
  | raised held ran =>
    cases ends
    obtain ⟨statements,before,ready,parts,prior⟩ := valid _ held
    refine .raised ready ?_
    rw [parts,State.cut,runAll_append_ok _ prior]
    simp [runAll,ran]
  | commit held =>
    cases ends
    obtain ⟨statements,before,ready,parts,prior⟩ := valid _ held
    refine .section ready ?_
    rw [parts,State.cut,List.append_nil]
    exact prior

theorem run_serial (path : Run (Step P) s as t) (idle : s.writer = none) : Serial P t :=
  path.preserves (Serial.idle idle) (fun _ _ _ valid step => serial_preserved valid step)

-- Every interleaving of the statements is a run of whole sections.
theorem run_refines (path : Run (Step P) s as t) (idle : s.writer = none) :
    Reached (Atomic P) s.cut t.cut := by
  induction path with
  | nil => exact .refl
  | @step _ _ a _ prior last ih =>
    cases ends : a.whole with
    | none => rw [step_idle last ends]; exact ih
    | some w => exact ih.next (step_whole (run_serial prior idle) last ends)

-- A section whose statements go through can be run to its commit.
theorem section_runs {statements : List (Statement σ μ)} {v : σ} {m : μ} {actor : τ} (idle : s.writer = none)
    (ready : P.locked (s.memory actor) = some statements)
    (ran : runAll statements s.committed (s.memory actor) = .ok (v,m)) :
    Reached (Step P) s ⟨v,Function.update s.memory actor m,none⟩ := by
  have inside : ∀ (rest : List (Statement σ μ)) (w : σ) (n : μ), runAll rest w n = .ok (v,m) →
      Reached (Step P) {s with writer := some ⟨actor,w,n,rest⟩} ⟨v,Function.update s.memory actor m,none⟩ := by
    intro rest
    induction rest with
    | nil =>
      intro w n ran
      cases ran
      exact Reached.refl.next (.commit rfl)
    | cons stmt rest ih =>
      intro w n ran
      obtain ⟨w',n',first,ran⟩ := runAll_cons_ok ran
      exact Reached.trans (Reached.refl.next (.statement rfl first)) (ih w' n' ran)
  exact Reached.trans (Reached.refl.next (.enter idle ready)) (inside statements _ _ ran)

-- So an invariant of whole sections holds at every moment of every interleaving.
theorem run_invariant {I : Cut τ σ μ → Prop} (path : Run (Step P) s as t) (idle : s.writer = none)
    (initially : I s.cut) (preserved : ∀ c w d, I c → Atomic P c w d → I d) : I t.cut :=
  (run_refines path idle).preserves initially preserved

end SingleWriter
