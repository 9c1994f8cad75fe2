import SqlMaps.Files.Basic

/-! What a change to one file leaves alone.

`AgreeBut r f g` says that two states of the files differ under the exact path `r` at most,
where neither has a directory. A way through the directories never leads through `r` then,
so every path means the same in both (`AgreeBut.locate_eq`), and whatever does not lead to
`r` leads to the same content (`AgreeBut.found?_eq`). Putting a file and taking one away
are such changes. -/
namespace SqlMaps.Files

/-! ### Exact paths -/

theorem lookup_filter_ne (entries : List (Path × Content)) (r p : Path) :
    (entries.filter (·.1 ≠ r)).lookup p = if p = r then none else entries.lookup p := by
  induction entries with
  | nil => simp
  | cons entry rest ih =>
    obtain ⟨q, c⟩ := entry
    by_cases hq : q = r
    · subst hq
      rw [List.filter_cons_of_neg (by simp), ih]
      by_cases hp : p = q
      · rw [if_pos hp, if_pos hp]
      · rw [if_neg hp, if_neg hp, List.lookup_cons, beq_eq_false_iff_ne.mpr hp]
    · rw [List.filter_cons_of_pos (by simpa using hq), List.lookup_cons, ih]
      by_cases hp : p = q
      · subst hp
        simp [hq]
      · simp [List.lookup_cons, beq_eq_false_iff_ne.mpr hp]

theorem lookup?_put (files : Files) {r : Path} (hr : r ≠ []) (c : Content) (p : Path) :
    (files.put r c).lookup? p = if p = r then some c else files.lookup? p := by
  cases p with
  | nil => simp [lookup?, hr.symm]
  | cons name names =>
    simp only [lookup?, put, List.isEmpty_cons, Bool.false_eq_true, if_false, List.lookup_append,
      lookup_filter_ne]
    by_cases hp : name :: names = r
    · simp [hp]
    · simp [hp, List.lookup_cons, beq_eq_false_iff_ne.mpr hp]

theorem lookup?_erase (files : Files) {r : Path} (hr : r ≠ []) (p : Path) :
    (files.erase r).lookup? p = if p = r then none else files.lookup? p := by
  cases p with
  | nil => simp [lookup?, hr.symm]
  | cons name names =>
    simp only [lookup?, erase, List.isEmpty_cons, Bool.false_eq_true, if_false, lookup_filter_ne]

/-- The outermost directory is one. -/
theorem ne_nil_of_lookup? {files : Files} {r : Path} (h : files.lookup? r ≠ some .directory) :
    r ≠ [] := by
  rintro rfl
  exact h rfl

/-! ### Changes under one path -/

/-- The files differ under one exact path at most, and neither has a directory there. -/
structure AgreeBut (r : Path) (f g : Files) : Prop where
  working : g.working = f.working
  others : ∀ p, p ≠ r → g.lookup? p = f.lookup? p
  left : f.lookup? r ≠ some .directory
  right : g.lookup? r ≠ some .directory

theorem agreeBut_put {files : Files} {r : Path} {c : Content}
    (h : files.lookup? r ≠ some .directory) (hc : c ≠ .directory) :
    AgreeBut r files (files.put r c) := by
  have hr := ne_nil_of_lookup? h
  refine ⟨rfl, fun p hp => ?_, h, ?_⟩
  · rw [lookup?_put files hr, if_neg hp]
  · rw [lookup?_put files hr, if_pos rfl]
    simpa using hc

theorem agreeBut_erase {files : Files} {r : Path} (h : files.lookup? r ≠ some .directory) :
    AgreeBut r files (files.erase r) := by
  have hr := ne_nil_of_lookup? h
  refine ⟨rfl, fun p hp => ?_, h, ?_⟩
  · rw [lookup?_erase files hr, if_neg hp]
  · rw [lookup?_erase files hr, if_pos rfl]
    simp

namespace AgreeBut
variable {r : Path} {f g : Files}

theorem refl (h : f.lookup? r ≠ some .directory) : AgreeBut r f f :=
  ⟨rfl, fun _ _ => rfl, h, h⟩

theorem symm (h : AgreeBut r f g) : AgreeBut r g f :=
  ⟨h.working.symm, fun p hp => (h.others p hp).symm, h.right, h.left⟩

theorem trans {e : Files} (h : AgreeBut r f g) (h' : AgreeBut r g e) : AgreeBut r f e :=
  ⟨h'.working.trans h.working, fun p hp => (h'.others p hp).trans (h.others p hp), h.left,
    h'.right⟩

/-- Directories are the same in both. -/
theorem lookup?_of_directory (h : AgreeBut r f g) {p : Path}
    (hp : f.lookup? p = some .directory) : g.lookup? p = some .directory := by
  have hne : p ≠ r := by
    rintro rfl
    exact h.left hp
  rw [h.others p hne, hp]

/-- A way through the directories of the one is a way through those of the other. -/
theorem follow_eq (h : AgreeBut r f g) {names : List String} {reached p : Path}
    (hp : f.follow names reached = .ok p) : g.follow names reached = .ok p := by
  induction names generalizing reached with
  | nil => exact hp
  | cons name names ih =>
    rw [follow] at hp ⊢
    cases hl : f.lookup? reached with
    | none => simp [hl] at hp
    | some c =>
      cases c with
      | bytes _ => simp [hl] at hp
      | database _ => simp [hl] at hp
      | directory =>
        rw [h.lookup?_of_directory hl]
        simp only [hl] at hp ⊢
        split
        · next hhere =>
          rw [if_pos hhere] at hp
          exact ih hp
        · next hhere =>
          rw [if_neg hhere] at hp
          split
          · next hup =>
            rw [if_pos hup] at hp
            exact ih hp
          · next hup =>
            rw [if_neg hup] at hp
            split
            · next hlong => simp [hlong] at hp
            · next hlong =>
              rw [if_neg hlong] at hp
              exact ih hp

theorem locate_eq (h : AgreeBut r f g) {path : String} {p : Path} (hp : f.locate path = .ok p) :
    g.locate path = .ok p := by
  rw [locate] at hp ⊢
  split at hp
  · cases hp
  · next hempty =>
    rw [if_neg hempty]
    split at hp
    · cases hp
    · next hlong =>
      rw [if_neg hlong, h.working]
      exact h.follow_eq hp

end AgreeBut

/-! ### Contents -/

/-- What a path leads to, if it leads to anything. -/
def found? (files : Files) (path : String) : Option Content :=
  (files.content path).toOption

theorem found?_of_locate {files : Files} {path : String} {p : Path}
    (h : files.locate path = .ok p) : files.found? path = files.lookup? p := by
  cases hl : files.lookup? p <;> simp only [found?, content, h, bind, Except.bind, hl] <;> rfl

theorem found?_of_error {files : Files} {path : String} {e : FileError}
    (h : files.locate path = .error e) : files.found? path = none := by
  rw [found?, content, h]
  rfl

/-- A path that leads elsewhere has the same content as before. -/
theorem AgreeBut.found?_eq {r : Path} {f g : Files} (h : AgreeBut r f g) {path : String}
    (hp : f.locate path ≠ .ok r) : g.found? path = f.found? path := by
  cases hl : f.locate path with
  | ok p =>
    have hne : p ≠ r := by
      rintro rfl
      exact hp hl
    rw [found?_of_locate hl, found?_of_locate (h.locate_eq hl), h.others p hne]
  | error e =>
    rw [found?_of_error hl]
    cases hl' : g.locate path with
    | error e' => exact found?_of_error hl'
    | ok p => cases (h.symm.locate_eq hl').symm.trans hl

/-! ### Removing and moving -/

/-- There is a file under the exact path. -/
def IsFile (files : Files) (p : Path) : Prop :=
  ∃ content, files.lookup? p = some content ∧ content ≠ .directory

theorem IsFile.not_directory {files : Files} {p : Path} (h : files.IsFile p) :
    files.lookup? p ≠ some .directory := by
  obtain ⟨content, hl, hc⟩ := h
  simpa [hl] using hc

/-- What leads to a file can be removed, and nothing else. -/
theorem remove_cases (files : Files) (path : String) :
    (∃ p, files.locate path = .ok p ∧ files.IsFile p ∧
      files.remove path = .ok (files.erase p)) ∨
    (∀ p, files.locate path = .ok p → ¬files.IsFile p) ∧ ∃ e, files.remove path = .error e := by
  cases hp : files.locate path with
  | error e =>
    refine .inr ⟨nofun, e, ?_⟩
    rw [remove, hp]
    rfl
  | ok p =>
    cases hl : files.lookup? p with
    | none =>
      refine .inr ⟨fun q hq ⟨content, hc, _⟩ => ?_, .missing, ?_⟩
      · cases hq
        cases hl.symm.trans hc
      · simp only [remove, hp, bind, Except.bind, hl]
        rfl
    | some content =>
      by_cases hc : content = .directory
      · subst hc
        refine .inr ⟨fun q hq hfile => ?_, .directory, ?_⟩
        · cases hq
          exact hfile.not_directory hl
        · simp only [remove, hp, bind, Except.bind, hl]
          rfl
      · refine .inl ⟨p, rfl, ⟨content, hl, hc⟩, ?_⟩
        simp only [remove, hp, bind, Except.bind, hl]
        cases content with
        | directory => exact absurd rfl hc
        | bytes _ => rfl
        | database _ => rfl

/-- What is moved stands where the target leads to, which is no directory. -/
theorem rename_cases {files files' : Files} {source target : String}
    (h : files.rename source target = .ok files') :
    ∃ q p content, files.locate source = .ok q ∧ files.locate target = .ok p ∧
      files.lookup? q = some content ∧ files.lookup? p ≠ some .directory ∧
      files' = (files.erase q).put p content := by
  rw [rename] at h
  cases hq : files.locate source with
  | error e =>
    rw [hq] at h
    cases h
  | ok q =>
    rw [hq] at h
    generalize String.ofList (target.toList.reverse.dropWhile (· == '/')).reverse = named at h
    cases hp : files.locate (if named = "" then target else named) with
    | error e =>
      simp only [bind, Except.bind, hp] at h
      cases h
    | ok p =>
      simp only [bind, Except.bind, hp] at h
      split at h
      · cases h
      · cases h
      · cases h
      · next _ _ content hl hnot _ =>
        split at h
        · next hnamed =>
          cases h
          subst hnamed
          exact ⟨q, p, content, rfl, by simpa using hp, hl, hnot, rfl⟩
        · cases h

end SqlMaps.Files
