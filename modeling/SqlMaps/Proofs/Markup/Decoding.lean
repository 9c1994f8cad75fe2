import Mathlib.Data.List.Forall2
import Mathlib.Data.List.TakeWhile
import Mathlib.Data.Nat.Digits.Defs
import Mathlib.Tactic.ByContra
import SqlMaps.Markup.Entity
import SqlMaps.Proofs.Number.IntegerReading

/-! What a text with character references stands for.

`Names` says which names stand between `&` and `;`, and for which character each: five words,
and the numbers of all characters in decimal or hexadecimal digits. `Decodes` takes a text
apart from the left. A reference is its character, an `&` with which none begins is kept, and
so is every other character. Each text decodes to one text, the one that `decode` gives
(`decodes_iff`): a reference is looked for up to the first `;` only, and no name holds one. -/
namespace SqlMaps.Markup.Entity

/-! ### References -/

/-- A digit of the base, and what it counts: its place among the digits, a letter in either case. -/
def IsDigit (base : Nat) (c : Char) (n : Nat) : Prop :=
  n < base ∧ Text.Hex.smallDigits[n]? = some c.toLower

/-- The number that one digit or more denote, the most significant in front. -/
def Denotes (base : Nat) (digits : List Char) (n : Nat) : Prop :=
  digits ≠ [] ∧ ∃ ds, List.Forall₂ (IsDigit base) digits ds ∧ Nat.ofDigits base ds.reverse = n

/-- The name of a character, from what stands between `&` and `;`. -/
inductive Names : List Char → Char → Prop where
  | less : Names "lt".toList '<'
  | greater : Names "gt".toList '>'
  | ampersand : Names "amp".toList '&'
  | quote : Names "quot".toList '"'
  | apostrophe : Names "apos".toList '\''
  | decimal {digits : List Char} {c : Char} : Denotes 10 digits c.toNat → Names ('#' :: digits) c
  | hexadecimal {digits : List Char} {c : Char} :
      Denotes 16 digits c.toNat → Names ('#' :: 'x' :: digits) c

/-- The text that a text with references stands for. -/
inductive Decodes : List Char → List Char → Prop where
  | nil : Decodes [] []
  | plain {c : Char} {s t : List Char} : c ≠ '&' → Decodes s t → Decodes (c :: s) (c :: t)
  | reference {name s t : List Char} {c : Char} : Names name c → Decodes s t →
      Decodes ('&' :: (name ++ ';' :: s)) (c :: t)
  /-- An `&` with which no reference begins. -/
  | kept {s t : List Char} : (∀ name c after, Names name c → s ≠ name ++ ';' :: after) →
      Decodes s t → Decodes ('&' :: s) ('&' :: t)

/-! ### Reading numbers -/

open Number

theorem digit?_eq_some_iff {base n : Nat} {c : Char} :
    Range.digit? base c = some n ↔ IsDigit base c n := by
  have hplace : Text.Hex.smallDigits[n]? = some c.toLower ↔
      n < 16 ∧ c.toLower = Text.Hex.smallDigits.getD n '0' := by
    rw [List.getD_eq_getElem?_getD]
    constructor
    · intro h
      exact ⟨(List.getElem?_eq_some_iff.1 h).1, by rw [h, Option.getD_some]⟩
    · rintro ⟨hn, hc⟩
      have hlength : n < Text.Hex.smallDigits.length := hn
      rw [hc, List.getElem?_eq_getElem hlength, Option.getD_some]
  rw [Range.digit?, Option.filter_eq_some_iff, Text.Hex.digit?_eq_some_iff, IsDigit, hplace,
    decide_eq_true_iff]
  exact and_comm

/-- No sign is a digit, nor is the end of a reference. -/
theorem not_mem_of_isDigit {base n : Nat} {c : Char} (h : IsDigit base c n) :
    c ∉ ['+', '-', ';', 'x'] := by
  have hvalue := (Option.filter_eq_some_iff.1 (digit?_eq_some_iff.2 h)).1
  have hnone : (['+', '-', ';', 'x'].all fun d => (Text.Hex.digit? d).isNone) = true := by decide
  intro hmem
  have hc := List.all_eq_true.1 hnone c hmem
  rw [hvalue] at hc
  cases hc

/-- More digits only make a number greater. -/
theorem le_foldl {base : Nat} (hbase : 0 < base) (ds : List Nat) (k : Nat) :
    k ≤ ds.foldl (fun n d => n * base + d) k := by
  induction ds generalizing k with
  | nil => exact Nat.le_refl k
  | cons d ds ih =>
    calc k ≤ k * base := Nat.le_mul_of_pos_right k hbase
      _ ≤ k * base + d := Nat.le_add_right ..
      _ ≤ _ := ih _

/-- Digits are read on from a number as long as what they come to is in the range. -/
theorem readDigits_eq_ok_iff {base : Nat} (hbase : 0 < base) {range : Range} (hlow : range.low ≤ 0)
    {digits : List Char} {k : Nat} (hk : (k : Int) ≤ range.high) {m : Int} :
    range.readDigits base 1 digits k = .ok m ↔
      ∃ ds, List.Forall₂ (IsDigit base) digits ds ∧
        (ds.foldl (fun n d => n * base + d) k : Nat) = m ∧ m ≤ range.high := by
  induction digits generalizing k with
  | nil =>
    simp only [Range.readDigits, Except.ok.injEq, List.forall₂_nil_left_iff, exists_eq_left,
      List.foldl_nil]
    exact ⟨fun h => ⟨h, h ▸ hk⟩, And.left⟩
  | cons c digits ih =>
    simp only [Range.readDigits, List.forall₂_cons_left_iff]
    cases hc : Range.digit? base c with
    | none =>
      constructor
      · intro h
        cases h
      · rintro ⟨_, ⟨d, ds, hd, -, rfl⟩, -⟩
        rw [digit?_eq_some_iff.2 hd] at hc
        cases hc
    | some d =>
      have hnext : (k : Int) * base + 1 * d = (k * base + d : Nat) := by simp
      dsimp only
      rw [hnext]
      cases hcheck : range.check (k * base + d : Nat) with
      | error e =>
        constructor
        · intro h
          cases h
        · rintro ⟨_, ⟨d', ds, hd, -, rfl⟩, hm, hhigh⟩
          rw [digit?_eq_some_iff.2 hd] at hc
          cases hc
          -- The number is out of the range already, and more digits do not bring it back.
          have hle := le_foldl hbase ds (k * base + d)
          rw [List.foldl_cons] at hm
          rw [Range.check_eq_ok_iff.2 ⟨rfl, by omega, by omega⟩] at hcheck
          cases hcheck
      | ok next =>
        obtain ⟨rfl, -, hhigh⟩ := Range.check_eq_ok_iff.1 hcheck
        refine (ih hhigh).trans ⟨?_, ?_⟩
        · rintro ⟨ds, hds, hm⟩
          exact ⟨d :: ds, ⟨d, ds, digit?_eq_some_iff.1 hc, hds, rfl⟩, hm⟩
        · rintro ⟨_, ⟨d', ds, hd, hds, rfl⟩, hm⟩
          rw [digit?_eq_some_iff.2 hd] at hc
          cases hc
          exact ⟨ds, hds, hm⟩

theorem foldl_eq_ofDigits (base : Nat) (ds : List Nat) :
    ds.foldl (fun n d => n * base + d) 0 = Nat.ofDigits base ds.reverse := by
  rw [Nat.ofDigits_eq_foldr, List.foldr_reverse]
  simp only [Nat.cast_id, Nat.mul_comm base, Nat.add_comm]

theorem exists_isDigit {base : Nat} {digits : List Char} {ds : List Nat}
    (h : List.Forall₂ (IsDigit base) digits ds) : ∀ c ∈ digits, ∃ d, IsDigit base c d := by
  induction h with
  | nil => simp
  | cons hd _ ih => exact List.forall_mem_cons.2 ⟨⟨_, hd⟩, ih⟩

/-- Digits are taken one by one. -/
theorem all_digit?_iff {base : Nat} {digits : List Char} :
    (digits.all fun c => (Range.digit? base c).isSome) = true ↔
      ∀ c ∈ digits, ∃ d, IsDigit base c d := by
  simp only [List.all_eq_true, Option.isSome_iff_exists, digit?_eq_some_iff]

/-- What begins with a digit has no sign, and is read as the number that its digits denote. -/
theorem read_nat32_eq_ok_iff {base : Nat} (hbase : 0 < base) {c : Char} {rest : List Char}
    (hc : ∃ d, IsDigit base c d) {m : Int} :
    Range.nat32.read base (c :: rest) = .ok m ↔
      ∃ ds, List.Forall₂ (IsDigit base) (c :: rest) ds ∧
        (Nat.ofDigits base ds.reverse : Nat) = m ∧ m ≤ Range.nat32.high := by
  obtain ⟨d, hd⟩ := hc
  have hsign := not_mem_of_isDigit hd
  simp only [List.mem_cons, not_or] at hsign
  have hread : Range.nat32.read base (c :: rest) = Range.nat32.readDigits base 1 (c :: rest) 0 := by
    simp [Range.read, hsign.1, hsign.2.1]
  rw [hread]
  simp only [← foldl_eq_ofDigits]
  exact readDigits_eq_ok_iff hbase (by decide) (by decide)

/-- Digits are read as the number that they denote, if it has no more than 32 bits. -/
theorem code?_eq_some_iff {base : Nat} (hbase : 0 < base) {digits : List Char} {n : Nat} :
    code? base digits = some n ↔ Denotes base digits n ∧ (n : Int) ≤ Range.nat32.high := by
  rw [code?, Denotes]
  cases digits with
  | nil => simp
  | cons c rest =>
    constructor
    · intro h
      split at h
      · cases h
      · rename_i hdigits
        simp only [List.isEmpty_cons, Bool.false_eq_true, false_or, not_not] at hdigits
        have hc := all_digit?_iff.1 hdigits c (List.mem_cons_self ..)
        split at h
        · rename_i m hm
          obtain ⟨ds, hds, rfl, hhigh⟩ := (read_nat32_eq_ok_iff hbase hc).1 hm
          cases h
          exact ⟨⟨List.cons_ne_nil _ _, ds, hds, rfl⟩, hhigh⟩
        · cases h
    · rintro ⟨⟨-, ds, hds, hn⟩, hhigh⟩
      have hdigits := exists_isDigit hds
      have hm := (read_nat32_eq_ok_iff hbase (hdigits c (List.mem_cons_self ..))).2
        ⟨ds, hds, congrArg Nat.cast hn, hhigh⟩
      have hgo : ¬ ((c :: rest).isEmpty = true ∨
          ¬ ((c :: rest).all fun c => (Range.digit? base c).isSome) = true) := by
        rw [all_digit?_iff]
        simpa using hdigits
      rw [if_neg hgo, hm]
      rfl

/-- A number is that of a character if it is its code point. -/
theorem charOf?_eq_some_iff {n : Nat} {c : Char} : charOf? n = some c ↔ c.toNat = n := by
  rw [charOf?]
  constructor
  · intro h
    split at h
    · rename_i hvalid
      cases h
      rw [Char.ofNat, dif_pos hvalid]
      rfl
    · cases h
  · rintro rfl
    have hvalid : c.toNat.isValidChar := c.valid
    rw [if_pos hvalid, Char.ofNat_toNat]

/-! ### Reading references -/

/-- The numbers of characters are read. -/
theorem bind_charOf?_eq_some_iff {base : Nat} (hbase : 0 < base) {digits : List Char} {c : Char} :
    (code? base digits).bind charOf? = some c ↔ Denotes base digits c.toNat := by
  simp only [Option.bind_eq_some_iff, code?_eq_some_iff hbase, charOf?_eq_some_iff]
  constructor
  · rintro ⟨n, ⟨hn, -⟩, rfl⟩
    exact hn
  · intro h
    refine ⟨_, ⟨h, ?_⟩, rfl⟩
    have hsmall : c.toNat < 2 ^ 32 := c.val.toNat_lt
    simp only [Range.nat32]
    omega

theorem named?_eq_some_iff {name : List Char} {c : Char} :
    named? name = some c ↔ Names name c := by
  constructor
  · intro h
    unfold named? at h
    split at h
    · cases h
      exact .less
    · cases h
      exact .greater
    · cases h
      exact .ampersand
    · cases h
      exact .quote
    · cases h
      exact .apostrophe
    · exact .hexadecimal ((bind_charOf?_eq_some_iff (by decide)).1 h)
    · exact .decimal ((bind_charOf?_eq_some_iff (by decide)).1 h)
    · cases h
  · intro h
    cases h with
    | @decimal digits _ hdigits =>
      have hx : ∀ rest, digits ≠ 'x' :: rest := by
        rintro rest rfl
        obtain ⟨-, ds, hds, -⟩ := hdigits
        obtain ⟨d, hd⟩ := exists_isDigit hds 'x' (List.mem_cons_self ..)
        exact not_mem_of_isDigit hd (by decide)
      simpa [named?, hx] using (bind_charOf?_eq_some_iff (by decide)).2 hdigits
    | hexadecimal hdigits => exact (bind_charOf?_eq_some_iff (by decide)).2 hdigits
    | _ => rfl

/-- No name goes beyond the end of its reference. -/
theorem semicolon_not_mem_of_names {name : List Char} {c : Char} (h : Names name c) :
    ';' ∉ name := by
  have hdigits : ∀ {base n : Nat} {digits : List Char}, Denotes base digits n → ';' ∉ digits := by
    rintro base n digits ⟨-, ds, hds, -⟩ hmem
    obtain ⟨d, hd⟩ := exists_isDigit hds ';' hmem
    exact not_mem_of_isDigit hd (by decide)
  cases h with
  | decimal h => simpa using hdigits h
  | hexadecimal h => simpa using hdigits h
  | _ => decide

theorem reference?_append {v : List Char} (hv : ';' ∉ v) (after : List Char) :
    reference? (v ++ ';' :: after) = (named? v).map fun c => (c, after) := by
  have hall : ∀ c ∈ v, decide (c ≠ ';') = true := fun c hc => by
    simp only [ne_eq, decide_eq_true_eq]
    rintro rfl
    exact hv hc
  rw [reference?, List.dropWhile_append_of_pos hall, List.takeWhile_append_of_pos hall]
  simp

theorem reference?_eq_none {v : List Char} (hv : ';' ∉ v) : reference? v = none := by
  have hall : v.dropWhile (· ≠ ';') = [] := by
    rw [List.dropWhile_eq_nil_iff]
    intro c hc
    simp only [ne_eq, decide_eq_true_eq]
    rintro rfl
    exact hv hc
  rw [reference?, hall]

/-- A reference is read if and only if the text begins with one. -/
theorem reference?_eq_some_iff {s after : List Char} {c : Char} :
    reference? s = some (c, after) ↔ ∃ name, Names name c ∧ s = name ++ ';' :: after := by
  constructor
  · intro h
    have hmem : ';' ∈ s := by
      by_contra hmem
      rw [reference?_eq_none hmem] at h
      cases h
    obtain ⟨name, after', rfl, hname⟩ := List.eq_append_cons_of_mem hmem
    rw [reference?_append hname, Option.map_eq_some_iff] at h
    obtain ⟨c', hc', he⟩ := h
    cases he
    exact ⟨name, named?_eq_some_iff.1 hc', rfl⟩
  · rintro ⟨name, hname, rfl⟩
    rw [reference?_append (semicolon_not_mem_of_names hname), named?_eq_some_iff.2 hname]
    rfl

/-! ### Reading texts -/

theorem decode_cons {c : Char} (h : c ≠ '&') (rest : List Char) :
    decode (c :: rest) = c :: decode rest := by
  rw [decode, if_neg h]

theorem decode_of_reference {rest after : List Char} {c : Char}
    (h : reference? rest = some (c, after)) : decode ('&' :: rest) = c :: decode after := by
  rw [decode, if_pos rfl]
  split
  · rename_i d after' h'
    rw [h] at h'
    simp only [Option.some.injEq, Prod.mk.injEq] at h'
    obtain ⟨rfl, rfl⟩ := h'
    rfl
  · rename_i h'
    rw [h] at h'
    cases h'

theorem decode_of_none {rest : List Char} (h : reference? rest = none) :
    decode ('&' :: rest) = '&' :: decode rest := by
  rw [decode, if_pos rfl]
  split
  · rename_i h'
    rw [h] at h'
    cases h'
  · rfl

/-- What a text is decoded to is the one text that it stands for. -/
theorem decodes_iff {s t : List Char} : Decodes s t ↔ decode s = t := by
  constructor
  · intro h
    induction h with
    | nil => rw [decode]
    | plain hc _ ih => rw [decode_cons hc, ih]
    | reference hname _ ih =>
      rw [decode_of_reference (reference?_eq_some_iff.2 ⟨_, hname, rfl⟩), ih]
    | @kept s t hnone _ ih =>
      have href : reference? s = none := by
        rw [Option.eq_none_iff_forall_ne_some]
        rintro ⟨c, after⟩ h
        obtain ⟨name, hname, hs⟩ := reference?_eq_some_iff.1 h
        exact hnone name c after hname hs
      rw [decode_of_none href, ih]
  · rintro rfl
    fun_induction decode s with
    | case1 => exact .nil
    | case2 rest d after href ih =>
      obtain ⟨name, hname, rfl⟩ := reference?_eq_some_iff.1 href
      exact .reference hname ih
    | case3 rest href ih =>
      refine .kept (fun name c after hname hs => ?_) ih
      rw [reference?_eq_some_iff.2 ⟨name, hname, hs⟩] at href
      cases href
    | case4 c rest hc ih => exact .plain hc ih

/-- Each reference is decoded once, and one to no character is kept. -/
example : decode "a &lt; b &amp;lt; &#65;&#x4a; &#xD800; & &c;".toList =
    "a < b &lt; AJ &#xD800; & &c;".toList := by
  decide +kernel

end SqlMaps.Markup.Entity
