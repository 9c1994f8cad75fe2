import SqlMaps.Proofs.Number.RealReading
import SqlMaps.Sql.CommandReader
import SqlMaps.Store.Basic

/-! Names and values are read back from statements.

A reader takes a part off the text and leaves what follows it (`Takes`), if that is the end
of the text or what the library's statements have between parts (`Ends`). A literal is read
as the value that a store holds for it (`takes_literal`). -/
namespace SqlMaps.Sql

/-- What may follow a part: nothing, or what stands between parts. -/
def Ends (rest : List Char) : Prop :=
  ∀ c ∈ rest.head?, c = ',' ∨ c = ')' ∨ c = ' '

/-- The reader takes the text off whatever follows it. -/
def Takes (r : Reader α) (text : List Char) (a : α) : Prop :=
  ∀ rest, Ends rest → r (text ++ rest) = some (a, rest)

theorem readWord_append (word : String) (rest : List Char) :
    readWord word (word.toList ++ rest) = some ((), rest) := by
  rw [readWord, Text.dropWord_eq_some_iff.2 rfl]
  rfl

theorem Ends.ne {rest : List Char} (h : Ends rest) {quote : Char}
    (hquote : quote ∉ [',', ')', ' ']) : ∀ c ∈ rest.head?, c ≠ quote := by
  rintro c hc rfl
  exact hquote (by simpa using h c hc)

/-- The first character of a word decides whether it can follow a part. -/
theorem ends_append {word : String} (h : word.toList.head?.any [',', ')', ' '].contains = true)
    (rest : List Char) : Ends (word.toList ++ rest) := by
  intro c hc
  cases hw : word.toList with
  | nil => simp [hw] at h
  | cons d s =>
    rw [hw] at h hc
    cases hc
    simpa using h

theorem takes_quoted (quote : Char) (hquote : quote ∉ [',', ')', ' ']) (s : String) :
    Takes (readQuoted quote) (Text.Quoted.enclosed quote s).toList s := by
  intro rest hrest
  have := Text.Quoted.takeBody_double quote s.toList (hrest.ne hquote)
  simp [Text.Quoted.enclosed, Text.Quoted.enclose, readQuoted, this]

theorem takes_identifier (name : String) : Takes readIdentifier (identifier name).toList name :=
  takes_quoted '"' (by decide) name

/-! ### Numbers -/

theorem isNumberChar_of_isDigit {c : Char} (h : c.isDigit = true) : isNumberChar c = true := by
  simp [isNumberChar, h]

/-- A number is no text, no bytes and no NULL: its first character tells. -/
theorem readLiteral_of_number {c : Char} (hc : isNumberChar c = true) (s : List Char) :
    readLiteral (c :: s) = readNumber (c :: s) := by
  have hfirst : ∀ mark, isNumberChar mark = false → c ≠ mark := fun mark hmark h => by
    simp [← h, hc] at hmark
  have hquote := hfirst '\'' (by decide)
  have hblob := hfirst 'X' (by decide)
  have hnull := hfirst 'N' (by decide)
  simp [readLiteral, hquote, hblob, hnull]

/-- A number is read to its end. -/
theorem readLiteral_append {text rest : List Char} (hne : text ≠ [])
    (htext : ∀ c ∈ text, isNumberChar c = true) (hrest : Ends rest) :
    readLiteral (text ++ rest) =
      (if text.contains '.' || text.contains 'e' then
        (Number.Binary64.read text).toOption.map Value.real
      else (Number.Range.int64.read 10 text).toOption.map fun n => .integer (Int64.ofInt n)).map
        (·, rest) := by
  have hstop : ∀ c ∈ rest.head?, isNumberChar c = false := by
    intro c hc
    rcases hrest c hc with rfl | rfl | rfl <;> decide
  obtain ⟨htake, hdrop⟩ := Number.takeWhile_stop htext hstop
  obtain ⟨c, s, hcons⟩ := List.exists_cons_of_ne_nil hne
  have hliteral : readLiteral (text ++ rest) = readNumber (text ++ rest) := by
    rw [hcons, List.cons_append]
    exact readLiteral_of_number (htext c (by rw [hcons]; simp)) _
  simp only [hliteral, readNumber, htake, hdrop]

theorem mem_ofInt {i : Int} {c : Char} (h : c ∈ Number.ofInt i) : c.isDigit = true ∨ c = '-' := by
  cases i with
  | ofNat n => exact .inl (Number.mem_digits h)
  | negSucc n => exact (List.mem_cons.1 h).elim .inr fun h => .inl (Number.mem_digits h)

theorem isNumberChar_of_mem_ofInt {i : Int} {c : Char} (h : c ∈ Number.ofInt i) :
    isNumberChar c = true := by
  rcases mem_ofInt h with h | rfl
  · exact isNumberChar_of_isDigit h
  · decide

/-- Digits and a sign have neither a point nor an exponent. -/
theorem takes_integer (n : Int64) :
    Takes readLiteral (Number.intText n.toInt).toList (.integer n) := by
  intro rest hrest
  have hnot : ∀ mark : Char, mark.isDigit = false → mark ≠ '-' →
      (Number.ofInt n.toInt).contains mark = false := by
    intro mark hdigit hminus
    rw [← Bool.not_eq_true, List.contains_iff_mem]
    intro hc
    rcases mem_ofInt hc with h | h
    · simp [h] at hdigit
    · exact hminus h
  have hne : Number.ofInt n.toInt ≠ [] := by
    cases n.toInt with
    | ofNat k => exact Nat.toDigits_ne_nil
    | negSucc k => exact List.cons_ne_nil _ _
  rw [Number.intText, String.toList_ofList,
    readLiteral_append hne (fun c => isNumberChar_of_mem_ofInt) hrest,
    hnot '.' (by decide) (by decide), hnot 'e' (by decide) (by decide), Number.read_int64]
  simp [Except.toOption]

/-- A text with a mark is read as a real number. -/
theorem takes_marked {text : List Char} {x : Number.Binary64}
    (hchar : ∀ c ∈ text, isNumberChar c = true) (hmark : '.' ∈ text ∨ 'e' ∈ text)
    (hread : Number.Binary64.read text = .ok x) : Takes readLiteral text (.real x) := by
  intro rest hrest
  have hreal : (text.contains '.' || text.contains 'e') = true := by simpa using hmark
  have hne : text ≠ [] := by
    rintro rfl
    simp at hmark
  rw [readLiteral_append hne hchar hrest, if_pos hreal, hread]
  rfl

theorem isNumberChar_of_mem_parts {p : Number.Parts} {c : Char} (h : c ∈ p.text) :
    isNumberChar c = true := by
  simp only [Number.Parts.text, List.mem_append] at h
  rcases h with h | h | h
  · exact isNumberChar_of_isDigit (p.whole_digits c h)
  · have hdigits := p.fraction_digits
    cases hf : p.fraction with
    | none =>
      rw [hf] at h
      cases h
    | some ds =>
      rw [hf] at h hdigits
      rcases List.mem_cons.1 h with rfl | h
      · decide
      · exact isNumberChar_of_isDigit (hdigits c h)
  · cases hp : p.power with
    | none =>
      rw [hp] at h
      cases h
    | some e =>
      rw [hp] at h
      rcases List.mem_cons.1 h with rfl | h
      · decide
      · exact isNumberChar_of_mem_ofInt h

theorem takes_infinite (negative : Bool) :
    Takes readLiteral (if negative then "-9e999" else "9e999").toList
      (.real (.infinity negative)) := by
  cases negative
  · exact takes_marked (List.all_eq_true.1 rfl) (by decide) rfl
  · exact takes_marked (List.all_eq_true.1 rfl) (by decide) rfl

/-- In either layout a finite real number is one number to the reader. -/
theorem isNumberChar_of_mem_write {layout : Number.RealLayout} {zeros : Option (List Char)}
    (hend : layout.EndsIn zeros) {x : Number.Binary64} {negative : Bool} {m : Nat} {q : Int}
    (h : x.shape = .finite negative m q) {c : Char} (hc : c ∈ layout.write x) :
    isNumberChar c = true := by
  obtain ⟨p, htext, -, -⟩ := Number.Binary64.exists_text hend h
  rw [htext] at hc
  rcases List.mem_append.1 hc with hc | hc
  · cases negative
    · cases hc
    · rw [List.mem_singleton.1 hc]
      decide
  · exact isNumberChar_of_mem_parts hc

theorem takes_finite {x : Number.Binary64} {negative : Bool} {m : Nat} {q : Int}
    (h : x.shape = .finite negative m q) : Takes readLiteral x.literalText.toList (.real x) := by
  obtain ⟨p, htext, hmarked, -⟩ := Number.Binary64.exists_literal h
  have hread := Number.Binary64.read_literal h
  rw [Number.Binary64.literalText, String.toList_ofList]
  refine takes_marked (fun c => isNumberChar_of_mem_write Number.RealLayout.endsIn_literal h) ?_ hread
  rw [htext]
  simp only [List.mem_append]
  exact hmarked.mem.imp .inr .inr

/-! ### Literals -/

theorem takes_null : Takes readLiteral "NULL".toList .null := by
  intro rest _
  have hread := readWord_append "NULL" rest
  have htext : "NULL".toList ++ rest = 'N' :: ("ULL".toList ++ rest) := rfl
  rw [htext] at hread ⊢
  rw [readLiteral, hread]
  rfl

theorem takes_text (s : String) :
    Takes readLiteral (Text.Quoted.enclosed '\'' s).toList (.text s) := by
  intro rest hrest
  have hread := takes_quoted '\'' (by decide) s rest hrest
  have hquote : (Text.Quoted.enclosed '\'' s).toList ++ rest =
      '\'' :: (Text.Quoted.double '\'' s.toList ++ '\'' :: rest) := by
    simp [Text.Quoted.enclosed, Text.Quoted.enclose]
  rw [hquote] at hread ⊢
  rw [readLiteral, hread]
  rfl

theorem takes_blob (bytes : List UInt8) :
    Takes readLiteral (Value.blobText bytes).toList (.blob bytes) := by
  intro rest hrest
  let hex := Text.Hex.ofBytes Text.Hex.capitalDigits bytes
  have hplain : '\'' ∉ hex := fun h =>
    absurd (Text.Hex.mem_ofBytes (by decide) h) (by decide)
  have hread := takes_quoted '\'' (by decide) (String.ofList hex) rest hrest
  rw [Text.Quoted.enclosed, String.toList_ofList, String.toList_ofList, Text.Quoted.enclose,
    Text.Quoted.double_of_not_mem hplain] at hread
  have htext : (Value.blobText bytes).toList ++ rest = 'X' :: ('\'' :: hex ++ ['\''] ++ rest) := by
    simp [Value.blobText, hex]
  rw [htext, readLiteral, hread]
  simp [hex, Text.Hex.bytes?_ofBytes (.inr rfl) bytes]

/-- A literal is read as the value that a store holds for it. -/
theorem takes_literal (v : Value) : Takes readLiteral v.literal.toList (Store.stored v) := by
  cases v with
  | null => exact takes_null
  | flag b => exact takes_integer _
  | integer n => exact takes_integer n
  | real x =>
    rw [Value.literal, Value.realLiteral, Store.stored]
    cases hshape : x.shape with
    | nan => simpa [Number.Binary64.isNan, hshape] using takes_null
    | infinite negative =>
      simpa [Number.Binary64.isNan, hshape, Number.Binary64.ofWord_of_infinite hshape]
        using takes_infinite negative
    | finite negative m q => simpa [Number.Binary64.isNan, hshape] using takes_finite hshape
  | text s => exact takes_text s
  | blob bytes => exact takes_blob bytes
  | timestamp t => exact takes_text t.text

end SqlMaps.Sql
