import Mathlib.Data.List.Basic

-- A history, oldest event first, and what has held in it since some event.
namespace Histories
variable {ε : Type} {starts ends : ε → Prop} {events : List ε} {e : ε}

def Since (starts ends : ε → Prop) (events : List ε) : Prop :=
  ∃ before e after, events = before ++ e :: after ∧ starts e ∧ ∀ x ∈ after, ¬ ends x

theorem since_nil : ¬ Since starts ends [] := by
  rintro ⟨before,e,after,same,_⟩
  simp at same

-- An event of a longer history is the new one or one of the old.
theorem split_append {before after : List ε} {x : ε} : events ++ [e] = before ++ x :: after ↔
    (before = events ∧ x = e ∧ after = []) ∨ ∃ rest, after = rest ++ [e] ∧ events = before ++ x :: rest := by
  constructor
  · intro same
    rcases List.eq_nil_or_concat after with rfl | ⟨rest,last,rfl⟩
    · obtain ⟨rfl,single⟩ := List.append_inj' same rfl
      cases single
      exact .inl ⟨rfl,rfl,rfl⟩
    · rw [List.concat_eq_append,← List.cons_append,← List.append_assoc] at same
      obtain ⟨earlier,single⟩ := List.append_inj' same rfl
      cases single
      exact .inr ⟨rest,List.concat_eq_append,earlier⟩
  · rintro (⟨rfl,rfl,rfl⟩ | ⟨rest,rfl,rfl⟩)
    · rfl
    · rw [List.append_assoc,List.cons_append]

-- What holds of each event, given those before it.
theorem each_append {P : List ε → ε → Prop} : (∀ before x after, events ++ [e] = before ++ x :: after → P before x) ↔
    (∀ before x after, events = before ++ x :: after → P before x) ∧ P events e := by
  constructor
  · intro each
    exact ⟨fun before x after same => each before x (after ++ [e]) (split_append.mpr (.inr ⟨after,rfl,same⟩)),
      each events e [] rfl⟩
  · rintro ⟨each,last⟩ before x after same
    rcases split_append.mp same with ⟨rfl,rfl,rfl⟩ | ⟨rest,_,earlier⟩
    · exact last
    · exact each before x rest earlier

theorem since_append : Since starts ends (events ++ [e]) ↔ starts e ∨ (Since starts ends events ∧ ¬ ends e) := by
  constructor
  · rintro ⟨before,x,after,same,started,none⟩
    rcases split_append.mp same with ⟨rfl,rfl,rfl⟩ | ⟨rest,rfl,earlier⟩
    · exact .inl started
    · exact .inr ⟨⟨before,x,rest,earlier,started,fun y member => none y (List.mem_append_left _ member)⟩,
        none e (List.mem_append_right _ (List.mem_singleton.mpr rfl))⟩
  · rintro (started | ⟨⟨before,x,after,same,started,none⟩,last⟩)
    · exact ⟨events,e,[],rfl,started,fun x member => by cases member⟩
    · refine ⟨before,x,after ++ [e],?_,started,fun y member => ?_⟩
      · rw [same,List.append_assoc]
        rfl
      · rcases List.mem_append.mp member with old | new
        · exact none y old
        · rw [List.mem_singleton.mp new]
          exact last

theorem Since.started (held : Since starts ends events) : ∃ e ∈ events, starts e := by
  obtain ⟨before,e,after,rfl,started,_⟩ := held
  exact ⟨e,List.mem_append_right _ List.mem_cons_self,started⟩

-- What came after the last event that starts anew, as the events before it tell.
def Latest (starts : List ε → ε → Prop) (events after : List ε) : Prop :=
  ∃ before e, events = before ++ e :: after ∧ starts before e ∧
    ∀ x y z, after = x ++ y :: z → ¬ starts (before ++ e :: x) y

variable {begins : List ε → ε → Prop} {after : List ε}

theorem latest_start (started : begins events e) : Latest begins (events ++ [e]) [] :=
  ⟨events,e,rfl,started,fun x y z same => by simp at same⟩

theorem Latest.append (latest : Latest begins events after) (kept : ¬ begins events e) :
    Latest begins (events ++ [e]) (after ++ [e]) := by
  obtain ⟨before,first,rfl,started,none⟩ := latest
  exact ⟨before,first,by rw [List.append_assoc,List.cons_append],started,
    (each_append (P := fun x y => ¬ begins (before ++ first :: x) y)).mpr ⟨none,kept⟩⟩

end Histories
