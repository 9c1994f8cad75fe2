import SqlMaps.Session.Basic

/-! What an attempt does to the state, whether it succeeds or fails.

The state is kept when an attempt fails, so a property of the state is a property of
every way through a computation. `Follows R x` says that `x` takes any state along `R`;
it is closed under the ways attempts are put together, `bracket` among them
(`follows_bracket`), for any `R` that is a `Course`: reflexive and transitive. `Gives P x Q`
is about success alone: what `x` gives, and the state it leaves then, are as `Q` says. -/
namespace SqlMaps.Attempt
variable {σ α β : Type}

@[simp] theorem run_pure (a : α) (s : σ) : (pure a : Attempt σ α).run s = (.ok a, s) := rfl

@[simp] theorem run_throw (e : RunError) (s : σ) :
    (throw e : Attempt σ α).run s = (.error e, s) := rfl

theorem run_bind (x : Attempt σ α) (f : α → Attempt σ β) (s : σ) :
    (x >>= f).run s =
      match x.run s with
      | (.ok a, s') => (f a).run s'
      | (.error e, s') => (.error e, s') := by
  show ((ExceptT.run x >>= ExceptT.bindCont f : StateM σ _) s) = _
  simp only [bind, StateT.bind, ExceptT.run]
  rcases x s with ⟨_ | _, _⟩ <;> rfl

/-- What only turns the result into another leaves the same state. -/
theorem run_bind_pure (x : Attempt σ α) (f : α → β) (s : σ) :
    (x >>= fun a => pure (f a)).run s = ((x.run s).1.map f, (x.run s).2) := by
  rw [run_bind]
  rcases x.run s with ⟨_ | _, _⟩ <;> rfl

@[simp] theorem run_settle (x : Attempt σ α) (s : σ) :
    (settle x).run s = (.ok (x.run s).1, (x.run s).2) := rfl

@[simp] theorem run_settled (r : Except RunError α) (s : σ) :
    (settled r : Attempt σ α).run s = (r, s) := rfl

@[simp] theorem run_get (s : σ) : (get : Attempt σ σ).run s = (.ok s, s) := rfl

@[simp] theorem run_modify (f : σ → σ) (s : σ) :
    (modify f : Attempt σ Unit).run s = (.ok (), f s) := rfl

/-- A bracket that cannot be entered fails with the error of its entrance. -/
theorem run_bracket_of_error {enter mark : Attempt σ Unit} {leave : Attempt σ β}
    {body : Attempt σ α} {s s₁ : σ} {e : RunError} (h : enter.run s = (.error e, s₁)) :
    (bracket enter mark leave body).run s = (.error e, s₁) := by
  simp only [bracket, run_bind, h]

/-- Behind its entrance a bracket always runs to its exit, and both results count. -/
theorem run_bracket_of_ok {enter mark : Attempt σ Unit} {leave : Attempt σ β}
    {body : Attempt σ α} {s s₁ s₂ s₃ : σ} {r : Except RunError α} {o : Except RunError β}
    (he : enter.run s = (.ok (), s₁))
    (hb : (do let a ← body; mark; return a : Attempt σ α).run s₁ = (r, s₂))
    (hl : leave.run s₂ = (o, s₃)) :
    (bracket enter mark leave body).run s = (do return (← r, ← o), s₃) := by
  rw [bracket, run_bind, he]
  show (settle _ >>= _ : Attempt σ (α × β)).run s₁ = _
  rw [run_bind, run_settle, hb]
  show (settle leave >>= _ : Attempt σ (α × β)).run s₂ = _
  rw [run_bind, run_settle, hl]
  cases r with
  | error e => rfl
  | ok a =>
    cases o with
    | error e => rfl
    | ok b => rfl

/-- A bracket leaves the state that its exit leaves. -/
theorem state_bracket {enter mark : Attempt σ Unit} {leave : Attempt σ β}
    {body : Attempt σ α} {s s₁ s₂ : σ} {r : Except RunError α}
    (he : enter.run s = (.ok (), s₁))
    (hb : (do let a ← body; mark; return a : Attempt σ α).run s₁ = (r, s₂)) :
    ((bracket enter mark leave body).run s).2 = (leave.run s₂).2 := by
  cases hl : leave.run s₂ with
  | mk o s₃ => rw [run_bracket_of_ok he hb hl]

/-! ### Where a computation takes the state -/

/-- A relation along which states can be taken step after step. -/
class Course (R : σ → σ → Prop) : Prop where
  refl : ∀ s, R s s
  trans : ∀ {s t u}, R s t → R t u → R s u

/-- Whatever comes of the computation, it takes the state along the relation. -/
def Follows (R : σ → σ → Prop) (x : Attempt σ α) : Prop :=
  ∀ s, R s (x.run s).2

section Follows
variable {R : σ → σ → Prop} [Course R]

/-- A computation that leaves the state alone follows any course. -/
theorem follows_of_unchanged {x : Attempt σ α} (h : ∀ s, (x.run s).2 = s) : Follows R x := by
  intro s
  rw [h s]
  exact Course.refl s

theorem follows_pure (a : α) : Follows R (pure a) := follows_of_unchanged fun _ => rfl

theorem follows_throw (e : RunError) : Follows R (throw e : Attempt σ α) :=
  follows_of_unchanged fun _ => rfl

theorem follows_settled (r : Except RunError α) : Follows R (settled r) :=
  follows_of_unchanged fun _ => rfl

theorem follows_get : Follows R (get : Attempt σ σ) := follows_of_unchanged fun _ => rfl

omit [Course R] in
theorem follows_settle {x : Attempt σ α} (h : Follows R x) : Follows R (settle x) := h

/-- What comes behind a computation takes the state on from where that leaves it. -/
theorem follows_rest {f : α → Attempt σ β} (hf : ∀ a, Follows R (f a)) (x : Attempt σ α) (s : σ) :
    R (x.run s).2 ((x >>= f).run s).2 := by
  rw [run_bind]
  rcases x.run s with ⟨_ | a, s'⟩
  · exact Course.refl s'
  · exact hf a s'

theorem follows_bind {x : Attempt σ α} {f : α → Attempt σ β} (hx : Follows R x)
    (hf : ∀ a, Follows R (f a)) : Follows R (x >>= f) :=
  fun s => Course.trans (hx s) (follows_rest hf x s)

/-- What comes behind a result is followed where there is one. -/
theorem follows_settled_bind {r : Except RunError α} {f : α → Attempt σ β}
    (h : ∀ a, r = .ok a → Follows R (f a)) : Follows R (settled r >>= f) := by
  cases r with
  | error e => exact fun s => Course.refl s
  | ok a => exact h a rfl

theorem follows_map {x : Attempt σ α} (f : α → β) (hx : Follows R x) : Follows R (f <$> x) :=
  follows_bind hx fun _ => follows_pure _

/-- A bracket takes the state where its entrance, body, mark and exit take it. -/
theorem follows_bracket {enter mark : Attempt σ Unit} {leave : Attempt σ β}
    {body : Attempt σ α} (he : Follows R enter) (hm : Follows R mark) (hl : Follows R leave)
    (hb : Follows R body) : Follows R (bracket enter mark leave body) := by
  have hinside : Follows R (do let a ← body; mark; return a : Attempt σ α) :=
    follows_bind hb fun _ => follows_bind hm fun _ => follows_pure _
  refine follows_bind he fun _ => follows_bind (follows_settle hinside) fun _ => ?_
  refine follows_bind (follows_settle hl) fun _ => follows_bind (follows_settled _) fun _ => ?_
  exact follows_bind (follows_settled _) fun _ => follows_pure _

end Follows

/-! ### What a computation gives -/

/-- If the computation begins in a state as `P` says and succeeds, its result and the state
it leaves are as `Q` says. -/
def Gives (P : σ → Prop) (x : Attempt σ α) (Q : α → σ → Prop) : Prop :=
  ∀ ⦃s a s'⦄, P s → x.run s = (.ok a, s') → Q a s'

section Gives
variable {P P' : σ → Prop} {Q : α → σ → Prop} {R : β → σ → Prop}

theorem gives_pure (a : α) : Gives P (pure a) fun b s => b = a ∧ P s := by
  intro s b s' hs h
  cases h
  exact ⟨rfl, hs⟩

theorem gives_throw (e : RunError) : Gives P (throw e : Attempt σ α) Q := by
  intro s a s' _ h
  cases h

theorem gives_settled (r : Except RunError α) :
    Gives P (settled r) fun a s => r = .ok a ∧ P s := by
  intro s a s' hs h
  cases h
  exact ⟨rfl, hs⟩

theorem gives_get : Gives P (get : Attempt σ σ) fun s s' => s = s' ∧ P s' := by
  intro s a s' hs h
  cases h
  exact ⟨rfl, hs⟩

theorem gives_of_pre {x : Attempt σ α} (h : ∀ {s}, P s → P' s) (hx : Gives P' x Q) : Gives P x Q :=
  fun _ _ _ hs hrun => hx (h hs) hrun

theorem Gives.post {x : Attempt σ α} {Q' : α → σ → Prop} (hx : Gives P x Q)
    (h : ∀ {a s}, Q a s → Q' a s) : Gives P x Q' :=
  fun _ _ _ hs hrun => h (hx hs hrun)

theorem run_bind_eq_ok {x : Attempt σ α} {f : α → Attempt σ β} {s s' : σ} {b : β}
    (h : (x >>= f).run s = (.ok b, s')) :
    ∃ a s₁, x.run s = (.ok a, s₁) ∧ (f a).run s₁ = (.ok b, s') := by
  rw [run_bind] at h
  cases hr : x.run s with
  | mk r s₁ =>
    rw [hr] at h
    cases r with
    | error e => cases h
    | ok a => exact ⟨a, s₁, rfl, h⟩

/-- A step that succeeds hands on what it gives. -/
theorem gives_bind {x : Attempt σ α} {f : α → Attempt σ β} (hx : Gives P x Q)
    (hf : ∀ a, Gives (Q a) (f a) R) : Gives P (x >>= f) R := by
  intro s b s' hs h
  obtain ⟨a, s₁, hrun, hrest⟩ := run_bind_eq_ok h
  exact hf a (hx hs hrun) hrest

theorem gives_discard {x : Attempt σ α} {S : σ → Prop} (hx : Gives P x fun _ s => S s) :
    Gives P (discard x : Attempt σ Unit) fun _ s => S s := by
  intro s u s' hs h
  obtain ⟨a, s₁, hrun, hpure⟩ := run_bind_eq_ok (x := x) (f := fun _ => pure ()) h
  cases hpure
  exact hx hs hrun

theorem gives_of_exists {γ : Type} {S : γ → σ → Prop} {x : Attempt σ α}
    (h : ∀ c, Gives (S c) x Q) : Gives (fun s => ∃ c, S c s) x Q :=
  fun _ _ _ ⟨c, hs⟩ hrun => h c hs hrun

/-- A fact about the beginning that no state can change is there for the computation. -/
theorem gives_of_fact {p : Prop} {x : Attempt σ α} (h : p → Gives P x Q) :
    Gives (fun s => p ∧ P s) x Q :=
  fun _ _ _ hs hrun => h hs.1 hs.2 hrun

/-- A bracket that succeeds has gone through its entrance, its body, its mark and its exit. -/
theorem run_bracket_eq_ok {enter mark : Attempt σ Unit} {leave : Attempt σ β}
    {body : Attempt σ α} {s s' : σ} {a : α} {b : β}
    (h : (bracket enter mark leave body).run s = (.ok (a, b), s')) :
    ∃ s₁ s₂ s₃, enter.run s = (.ok (), s₁) ∧ body.run s₁ = (.ok a, s₂) ∧
      mark.run s₂ = (.ok (), s₃) ∧ leave.run s₃ = (.ok b, s') := by
  cases he : enter.run s with
  | mk r s₁ =>
    cases r with
    | error e =>
      rw [run_bracket_of_error he] at h
      cases h
    | ok u =>
      cases hb : (do let a ← body; mark; return a : Attempt σ α).run s₁ with
      | mk r s₃ =>
        cases hl : leave.run s₃ with
        | mk o s₄ =>
          rw [run_bracket_of_ok he hb hl] at h
          cases r with
          | error e => cases h
          | ok a' =>
            cases o with
            | error e => cases h
            | ok b' =>
              cases h
              obtain ⟨a', s₂, hbody, hrest⟩ := run_bind_eq_ok hb
              obtain ⟨_, s₃, hmark, hpure⟩ := run_bind_eq_ok hrest
              cases hpure
              exact ⟨s₁, s₂, s₃, rfl, hbody, hmark, hl⟩

end Gives

end SqlMaps.Attempt
