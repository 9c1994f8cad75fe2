/-! Text between quotes, with a quote inside the text written twice: how names and
text values stand in a statement. Reading accepts exactly what writing produces
(`undouble_eq_some_iff`). -/
namespace SqlMaps.Text.Quoted

/-- The text with every quote doubled. -/
def double (quote : Char) : List Char → List Char
  | [] => []
  | c :: rest => if c = quote then quote :: quote :: double quote rest else c :: double quote rest

/-- The text whose doubled form this is; a quote that stands alone is refused. -/
def undouble (quote : Char) : List Char → Option (List Char)
  | [] => some []
  | [c] => if c = quote then none else some [c]
  | c :: d :: rest =>
    if c = quote then
      if d = quote then (undouble quote rest).map (quote :: ·) else none
    else (undouble quote (d :: rest)).map (c :: ·)

/-- The text between quotes. -/
def enclose (quote : Char) (s : List Char) : List Char :=
  quote :: double quote s ++ [quote]

/-- The quoted text at the head of the input, after its opening quote, and what
follows its closing quote. -/
def takeBody (quote : Char) : List Char → Option (List Char × List Char)
  | [] => none
  | [c] => if c = quote then some ([], []) else none
  | c :: d :: rest =>
    if c = quote then
      if d = quote then (takeBody quote rest).map fun (s, r) => (quote :: s, r)
      else some ([], d :: rest)
    else (takeBody quote (d :: rest)).map fun (s, r) => (c :: s, r)

/-- `enclose` on strings. -/
def enclosed (quote : Char) (s : String) : String :=
  String.ofList (enclose quote s.toList)

theorem undouble_double (quote : Char) (s : List Char) :
    undouble quote (double quote s) = some s := by
  induction s with
  | nil => rfl
  | cons c rest ih =>
    by_cases h : c = quote
    · simp [double, undouble, h, ih]
    · cases hr : double quote rest with
      | nil =>
        have : rest = [] := by
          cases rest with
          | nil => rfl
          | cons d r => simp only [double] at hr; split at hr <;> simp at hr
        simp [double, undouble, h, this]
      | cons d r =>
        simp only [double, h, if_false, hr, undouble]
        rw [← hr, ih]
        rfl

theorem double_of_undouble (quote : Char) {t s : List Char} (h : undouble quote t = some s) :
    double quote s = t := by
  fun_induction undouble quote t generalizing s with
  | case1 => simp_all [double]
  | case2 => simp at h
  | case3 c hc => simp only [Option.some.injEq] at h; subst h; simp [double, hc]
  | case4 rest ih =>
    obtain ⟨u, hu, rfl⟩ := Option.map_eq_some_iff.1 h
    simp [double, ih hu]
  | case5 => simp at h
  | case6 c d rest hc ih =>
    obtain ⟨u, hu, rfl⟩ := Option.map_eq_some_iff.1 h
    simp [double, hc, ih hu]

/-- Reading accepts exactly the doubled forms. -/
theorem undouble_eq_some_iff {quote : Char} {t s : List Char} :
    undouble quote t = some s ↔ t = double quote s :=
  ⟨fun h => (double_of_undouble quote h).symm, fun h => h ▸ undouble_double quote s⟩

/-- Text without the quote is left alone. -/
theorem double_of_not_mem {quote : Char} {s : List Char} (h : quote ∉ s) : double quote s = s := by
  induction s with
  | nil => rfl
  | cons c s ih =>
    have hc : c ≠ quote := fun he => h (he ▸ List.mem_cons_self ..)
    simp [double, hc, ih fun hq => h (List.mem_cons_of_mem c hq)]

/-- A quote is written twice and every other character once. -/
theorem count_double (quote x : Char) (s : List Char) :
    (double quote s).count x = (if x = quote then 2 else 1) * s.count x := by
  induction s with
  | nil => simp [double]
  | cons c rest ih =>
    by_cases h : c = quote <;> by_cases hx : x = c <;> grind [double]

/-- A quoted text is read back, whatever follows it, unless that is another quote. -/
theorem takeBody_double (quote : Char) (s : List Char) {rest : List Char}
    (h : ∀ c ∈ rest.head?, c ≠ quote) :
    takeBody quote (double quote s ++ quote :: rest) = some (s, rest) := by
  induction s with
  | nil =>
    cases rest with
    | nil => simp [double, takeBody]
    | cons d r =>
      have : d ≠ quote := h d (by simp)
      simp [double, takeBody, this]
  | cons c r ih =>
    by_cases hc : c = quote
    · simp [double, takeBody, hc, ih]
    · have hne : ∃ d t, double quote r ++ quote :: rest = d :: t := by
        cases hd : double quote r with
        | nil => exact ⟨_, _, rfl⟩
        | cons d t => exact ⟨_, _, rfl⟩
      obtain ⟨d, t, hd⟩ := hne
      simp only [double, hc, if_false, List.cons_append]
      rw [hd, takeBody, if_neg hc, ← hd, ih]
      rfl

end SqlMaps.Text.Quoted
