namespace LabelledRuns
variable {σ α : Type}

-- A run lists its labels oldest first; the newest step is the outermost one.
inductive Run (Step : σ → α → σ → Prop) : σ → List α → σ → Prop where
  | nil : Run Step s [] s
  | step : Run Step s labels m → Step m a t → Run Step s (labels ++ [a]) t

def Reached (Step : σ → α → σ → Prop) (start s : σ) : Prop := ∃ labels, Run Step start labels s

-- The steps of a run whose source state and label meet a condition.
def Guarded (ok : σ → α → Prop) (Step : σ → α → σ → Prop) (s : σ) (a : α) (t : σ) : Prop :=
  ok s a ∧ Step s a t

variable {Step : σ → α → σ → Prop} {start s m t : σ} {as bs : List α}

theorem Run.single (step : Step s a t) : Run Step s [a] t := .step .nil step

theorem Run.append (left : Run Step s as m) (right : Run Step m bs t) : Run Step s (as ++ bs) t := by
  induction right with
  | nil => simpa using left
  | step _ last ih => simpa only [List.append_assoc] using Run.step ih last

theorem Run.last {a : α} (path : Run Step s (as ++ [a]) t) : ∃ m, Run Step s as m ∧ Step m a t := by
  generalize listed : as ++ [a] = labels at path
  cases path with
  | nil => simp at listed
  | step prior final =>
    obtain ⟨rfl,same⟩ := List.append_inj' listed rfl
    cases same
    exact ⟨_,prior,final⟩

theorem Run.cons (first : Step s a m) (rest : Run Step m as t) : Run Step s (a :: as) t :=
  (Run.single first).append rest

theorem Run.unguarded {ok : σ → α → Prop} (path : Run (Guarded ok Step) s as t) : Run Step s as t := by
  induction path with
  | nil => exact .nil
  | step _ last ih => exact .step ih last.2

theorem Run.weaken {Other : σ → α → σ → Prop} (path : Run Step s as t)
    (weaker : ∀ s a t, Step s a t → Other s a t) : Run Other s as t := by
  induction path with
  | nil => exact .nil
  | step _ last ih => exact .step ih (weaker _ _ _ last)

-- The induction every safety result uses: what one step preserves, a run preserves.
theorem Run.preserves {I : σ → Prop} (path : Run Step s as t) (initially : I s)
    (preserved : ∀ s a t, I s → Step s a t → I t) : I t := by
  induction path with
  | nil => exact initially
  | step _ last ih => exact preserved _ _ _ ih last

-- Where a label has at most one outcome, so have labels.
theorem Run.unique (functional : ∀ s a t u, Step s a t → Step s a u → t = u) (left : Run Step s as m)
    (right : Run Step s as t) : m = t := by
  induction left generalizing t with
  | nil =>
    generalize listed : ([] : List α) = labels at right
    cases right with
    | nil => rfl
    | step => simp at listed
  | step _ last ih =>
    obtain ⟨n,prior,final⟩ := right.last
    cases ih prior
    exact functional _ _ _ _ last final

theorem Run.guarded_last {ok : σ → α → Prop} {a : α} (functional : ∀ s a t u, Step s a t → Step s a u → t = u)
    (before : Run Step s as m) (guarded : Run (Guarded ok Step) s (as ++ [a]) t) :
    Run (Guarded ok Step) s as m ∧ ok m a := by
  obtain ⟨n,prior,holds,_⟩ := guarded.last
  cases Run.unique functional before prior.unguarded
  exact ⟨prior,holds⟩

-- Steps that meet a condition keep a property, and the first one that does not breaks
-- it for good.
structure Divides (ok : σ → α → Prop) (Step : σ → α → σ → Prop) (Valid Good Bad : σ → Prop) : Prop where
  functional : ∀ s a t u, Step s a t → Step s a u → t = u
  valid : ∀ {s a t}, Valid s → Step s a t → Valid t
  keeps : ∀ {s a t}, Valid s → Good s → Step s a t → ok s a → Good t
  breaks : ∀ {s a t}, Valid s → Good s → Step s a t → ¬ ok s a → Bad t
  remains : ∀ {s a t}, Valid s → Bad s → Step s a t → Bad t

-- Then a run has the property exactly if all its steps meet the condition.
theorem Divides.run {ok : σ → α → Prop} {Valid Good Bad : σ → Prop} (divides : Divides ok Step Valid Good Bad)
    (path : Run Step s as t) (initially : Valid s) (good : Good s) :
    Valid t ∧ ((Good t ∧ Run (Guarded ok Step) s as t) ∨ (Bad t ∧ ¬ Run (Guarded ok Step) s as t)) := by
  induction path with
  | nil => exact ⟨initially,.inl ⟨good,.nil⟩⟩
  | @step labels m a t before last ih =>
    obtain ⟨valid,either⟩ := ih
    refine ⟨divides.valid valid last,?_⟩
    rcases either with ⟨good,guarded⟩ | ⟨bad,unguarded⟩
    · by_cases meets : ok m a
      · exact .inl ⟨divides.keeps valid good last meets,guarded.step ⟨meets,last⟩⟩
      · refine .inr ⟨divides.breaks valid good last meets,fun whole => ?_⟩
        exact meets (before.guarded_last divides.functional whole).2
    · refine .inr ⟨divides.remains valid bad last,fun whole => ?_⟩
      exact unguarded (before.guarded_last divides.functional whole).1

-- A relation to the first state, built up step by step: histories, frames, prefixes.
theorem Run.relates {R : σ → σ → Prop} (path : Run Step s as t) (refl : ∀ s, R s s)
    (trans : ∀ a b c, R a b → R b c → R a c) (steps : ∀ s a t, Step s a t → R s t) : R s t := by
  induction path with
  | nil => exact refl _
  | step _ last ih => exact trans _ _ _ ih (steps _ _ _ last)

theorem Reached.refl : Reached Step s s := ⟨[],.nil⟩

theorem Reached.next (path : Reached Step start s) (step : Step s a t) : Reached Step start t :=
  ⟨_,.step path.choose_spec step⟩

theorem Reached.trans (left : Reached Step start s) (right : Reached Step s t) : Reached Step start t :=
  ⟨_,left.choose_spec.append right.choose_spec⟩

theorem Reached.preserves {I : σ → Prop} (path : Reached Step start s) (initially : I start)
    (preserved : ∀ s a t, I s → Step s a t → I t) : I s :=
  path.choose_spec.preserves initially preserved

-- A measure that every step lowers bounds the length of every run.
theorem Run.bounded (size : σ → Nat) (path : Run Step s as t)
    (lowers : ∀ s a t, Step s a t → size t < size s) : as.length + size t ≤ size s := by
  induction path with
  | nil => simp
  | step _ last ih =>
    have lower := lowers _ _ _ last
    simp only [List.length_append,List.length_cons,List.length_nil]
    omega

-- Then every run can be continued to a state without steps.
theorem Reached.completes (size : σ → Nat) (lowers : ∀ s a t, Step s a t → size t < size s) (s : σ) :
    ∃ t, Reached Step s t ∧ ∀ a u, ¬ Step t a u := by
  induction measured : size s using Nat.strongRecOn generalizing s with
  | ind n ih =>
    by_cases stuck : ∃ a u, Step s a u
    · obtain ⟨a,u,step⟩ := stuck
      obtain ⟨t,path,final⟩ := ih (size u) (measured ▸ lowers s a u step) u rfl
      exact ⟨t,(Reached.refl.next step).trans path,final⟩
    · exact ⟨s,.refl,fun a u step => stuck ⟨a,u,step⟩⟩

-- Labels that also say whether their step meets a condition, and how many of them do.
def Marked (mark : σ → α → Bool) (Step : σ → α → σ → Prop) (s : σ) (label : α × Bool) (t : σ) : Prop :=
  label.2 = mark s label.1 ∧ Step s label.1 t

def marks (labels : List (α × Bool)) : Nat := labels.countP Prod.snd

theorem marks_step (labels : List (α × Bool)) (label : α × Bool) : marks (labels ++ [label]) = marks labels + label.2.toNat := by
  have last : marks [label] = label.2.toNat := by
    cases holds : label.2 <;> simp [marks,holds]
  rw [← last]
  exact List.countP_append

-- Where a step is a function, a run can be computed.
def replay (advance : α → σ → Option σ) : List α → σ → Option σ
  | [], s => some s
  | a :: labels, s => (advance a s).bind (replay advance labels)

theorem replay_run {advance : α → σ → Option σ} {labels : List α} (ran : replay advance labels s = some t) :
    Run (fun s a t => advance a s = some t) s labels t := by
  induction labels generalizing s with
  | nil => cases ran; exact .nil
  | cons a labels ih =>
    obtain ⟨m,first,rest⟩ := Option.bind_eq_some_iff.mp ran
    exact .cons first (ih rest)

theorem replay_reaches {advance : α → σ → Option σ} {labels : List α} {p : σ → Bool}
    (ran : (replay advance labels s).any p = true) :
    ∃ t, Run (fun s a t => advance a s = some t) s labels t ∧ p t = true := by
  cases reached : replay advance labels s with
  | none => simp [reached] at ran
  | some t => exact ⟨t,replay_run reached,by simpa [reached] using ran⟩

-- The same for a run that also meets a condition at every step.
def checked (ok : σ → α → Prop) [∀ s a, Decidable (ok s a)] (advance : α → σ → Option σ) (a : α) (s : σ) : Option σ :=
  if ok s a then advance a s else none

theorem checked_reaches {ok : σ → α → Prop} [∀ s a, Decidable (ok s a)] {advance : α → σ → Option σ}
    {labels : List α} {p : σ → Bool} (ran : (replay (checked ok advance) labels s).any p = true) :
    ∃ t, Run (Guarded ok (fun s a t => advance a s = some t)) s labels t ∧ p t = true := by
  obtain ⟨t,path,holds⟩ := replay_reaches ran
  refine ⟨t,path.weaken fun s a t step => ?_,holds⟩
  unfold checked at step
  split at step
  · exact ⟨by assumption,step⟩
  · cases step

end LabelledRuns
