import SqlMaps.Proofs.Cli.HexReading
import SqlMaps.Proofs.Markup.Grammar
import SqlMaps.Proofs.Value.BeanReading

/-! Parameters of the command line are read back as they are written.

`Written` lists the ways to write a value behind a name. The name ends at the first mark, and
neither mark occurs in it, so what stands behind the marks has no say in where the text is cut:
it may hold the marks again (`cutAt_append`). The pairs of digits of a byte are read in either
letter case (`pairsOfBytes_of_lowercase`), and the value is the one that was written, under the
same name (`readParam_written`). -/
namespace SqlMaps

namespace Cli

/-! ### Cutting -/

section
variable {mark : Char} {before : List Char}

theorem cutAt_append (h : mark ∉ before) (after : List Char) :
    cutAt mark (before ++ mark :: after) = (before, some after) := by
  rw [cutAt, Text.splitAtChar_append h]

theorem cutAt_of_not_mem (h : mark ∉ before) : cutAt mark before = (before, none) := by
  rw [cutAt, Text.splitAtChar_eq_none_iff.2 h]

end

/-! ### Names and values -/

/-- A name that a parameter can be given under: no white space at its ends, and neither of the
marks that end a name. -/
structure IsName (name : String) : Prop where
  nonempty : name ≠ ""
  head : ∀ c ∈ name.toList.head?, Text.isBlank c = false
  last : ∀ c ∈ name.toList.getLast?, Text.isBlank c = false
  noEquals : '=' ∉ name.toList
  noColon : ':' ∉ name.toList

/-- A text behind its type, as it stands behind a name. -/
def typed (type raw : String) : String :=
  ":" ++ type ++ "=" ++ raw

/-- What is written behind a name to give it the value. -/
inductive Written : Value → String → Prop
  | plain (s : String) : Written (.text s) ("=" ++ s)
  | text (s : String) : Written (.text s) (typed "text" s)
  | integer (i : Int64) : Written (.integer i) (typed "int" (Number.intText i.toInt))
  | flag (b : Bool) : Written (.flag b) (typed "bool" (if b then "true" else "false"))
  /-- Two digits a byte, in either letter case. -/
  | blob {bytes : List UInt8} {s : String} :
      Text.lowercase s.toList = Text.Hex.ofBytes Text.Hex.smallDigits bytes →
      Written (.blob bytes) (typed "blob" s)
  | null : Written .null ":null"

theorem IsName.trimmed {name : String} (h : IsName name) :
    Text.trimmed (String.ofList name.toList) = name := by
  rw [Text.trimmed, String.toList_ofList, Text.trim_of_ends h.head h.last, String.ofList_toList]

section
variable {name : String}

/-- A parameter with a type has the value that the type reads, under its name. -/
theorem readParam_typed (hname : IsName name) (type raw : String) (htype : '=' ∉ type.toList)
    (htrimmed : Text.trimmed (String.ofList type.toList) = type) (hnull : type ≠ "null") :
    readParam (name ++ typed type raw) = (paramValue name type raw.toList).map (⟨name, ·⟩) := by
  have harg : (name ++ typed type raw).toList =
      name.toList ++ ':' :: type.toList ++ '=' :: raw.toList := by
    simp [typed]
  have hhead : '=' ∉ name.toList ++ ':' :: type.toList := by
    simp [hname.noEquals, htype]
  rw [readParam, harg, cutAt_append hhead]
  dsimp only
  rw [cutAt_append hname.noColon]
  simp only [hname.trimmed, htrimmed, if_neg hname.nonempty, if_neg hnull]

/-- A parameter without a type is a text. -/
theorem readParam_untyped (hname : IsName name) (raw : String) :
    readParam (name ++ ("=" ++ raw)) = .ok ⟨name, .text raw⟩ := by
  have harg : (name ++ ("=" ++ raw)).toList = name.toList ++ '=' :: raw.toList := by
    simp
  rw [readParam, harg, cutAt_append hname.noEquals]
  dsimp only
  rw [cutAt_of_not_mem hname.noColon]
  dsimp only
  rw [hname.trimmed, if_neg hname.nonempty, if_neg (by decide), paramValue, String.ofList_toList]
  rfl

/-- The type of no value needs none. -/
theorem readParam_null (hname : IsName name) : readParam (name ++ ":null") = .ok ⟨name, .null⟩ := by
  have harg : (name ++ ":null").toList = name.toList ++ ':' :: "null".toList := by
    simp
  have hhead : '=' ∉ name.toList ++ ':' :: "null".toList := by
    simp [hname.noEquals]
  rw [readParam, harg, cutAt_of_not_mem hhead]
  dsimp only
  rw [cutAt_append hname.noColon]
  dsimp only
  rw [hname.trimmed, if_neg hname.nonempty, if_pos (by decide)]

end

/-- Digits in either letter case have no white space among them. -/
theorem trim_of_lowercase {s : List Char} {bytes : List UInt8}
    (h : Text.lowercase s = Text.Hex.ofBytes Text.Hex.smallDigits bytes) : Text.trim s = s := by
  refine Text.trim_of_no_blank fun c hc => ?_
  have hmem : c.toLower ∈ Text.Hex.ofBytes Text.Hex.smallDigits bytes :=
    h ▸ List.mem_map_of_mem hc
  have hdigits : (Text.Hex.smallDigits.all fun d => !Text.isBlank d) = true := by decide
  have hlower : Text.isBlank c.toLower = false := by
    simpa using List.all_eq_true.1 hdigits _ (Text.Hex.mem_ofBytes (by decide) hmem)
  cases hblank : Text.isBlank c with
  | false => rfl
  | true => exact absurd (Text.isBlank_toLower hblank) (by simp [hlower])

/-- What is written behind a name is read as its value, under that name. -/
theorem readParam_written {name : String} (hname : IsName name) {v : Value} {written : String}
    (h : Written v written) : readParam (name ++ written) = .ok ⟨name, v⟩ := by
  cases h with
  | plain s => exact readParam_untyped hname s
  | text s =>
    rw [readParam_typed hname "text" s (by decide) (by decide) (by decide), paramValue,
      String.ofList_toList]
    rfl
  | integer i =>
    rw [readParam_typed hname "int" _ (by decide) (by decide) (by decide), paramValue,
      Number.trim_intText, Number.read_int64]
    dsimp only
    rw [Int64.ofInt_toInt]
    rfl
  | flag b =>
    rw [readParam_typed hname "bool" _ (by decide) (by decide) (by decide)]
    cases b <;> rfl
  | @blob bytes s hs =>
    rw [readParam_typed hname "blob" s (by decide) (by decide) (by decide), paramValue, hexBytes,
      trim_of_lowercase hs, pairsOfBytes_of_lowercase hs]
    rfl
  | null => exact readParam_null hname

/-- A name may hold white space inside, and digits both letter cases. -/
theorem readParam_written_mixedCase :
    IsName "full name" ∧ Written (.blob [0x0A, 0xFF]) (typed "blob" "0aFf") ∧
      readParam ("full name" ++ typed "blob" "0aFf") = .ok ⟨"full name", .blob [0x0A, 0xFF]⟩ := by
  have hname : IsName "full name" := by
    refine ⟨by decide, ?_, ?_, by decide, by decide⟩
    · rintro c ⟨⟩
      decide
    · rintro c ⟨⟩
      decide
  have hwritten : Written (.blob [0x0A, 0xFF]) (typed "blob" "0aFf") := .blob (by decide)
  exact ⟨hname, hwritten, readParam_written hname hwritten⟩

/-- The marks, white space and quotes in a text belong to it. -/
example : readParam ("n" ++ typed "text" " a=b:'c' ") = .ok ⟨"n", .text " a=b:'c' "⟩ := by
  decide +kernel

end Cli

end SqlMaps
