import Rendezvous.Text.Blank
import Rendezvous.Text.FilePath
import Rendezvous.Text.Identifier

/-!
# Identifiers and segments of paths

The tables of identifier characters have no range in common with the table of blanks
(`inRanges_eq_false`), and no character that separates paths or quotes texts continues an
identifier (`isPlain_of_isIdentifier`).  A text without slashes that is not made of dots is one
segment of a path: joining it to a path adds one part, which leads down (`pathParts_joinPath`).
-/

namespace Rendezvous.Text

/-! ## Characters of identifiers -/

/-- Whether no range of one list meets a range of another. -/
def areApart (rs bs : List (Nat × Nat)) : Bool :=
  rs.all fun r => bs.all fun b => r.2 < b.1 || b.2 < r.1

/-- Ranges that lie apart have no character in common. -/
theorem inRanges_eq_false {rs bs : List (Nat × Nat)} {c : Char} (hapart : areApart rs bs = true)
    (hc : inRanges rs c = true) : inRanges bs c = false := by
  rw [Bool.eq_false_iff]
  intro hb
  obtain ⟨r, hr, hcr⟩ := List.any_eq_true.1 hc
  obtain ⟨b, hb, hcb⟩ := List.any_eq_true.1 hb
  have hrb := List.all_eq_true.1 (List.all_eq_true.1 hapart r hr) b hb
  simp only [Bool.and_eq_true, Bool.or_eq_true, decide_eq_true_eq] at hcr hcb hrb
  omega

/-- What separates the parts of a path or of a file name, and what quotes a text. -/
def delimiters : List Char := ['/', '\\', ':', '.', '\'', '"', '`']

/-- A text without delimiters and blanks. -/
def IsPlain (text : List Char) : Prop :=
  ∀ c ∈ text, c ∉ delimiters ∧ isBlank c = false

theorem isBlank_of_continuesIdentifier {c : Char} (h : continuesIdentifier c = true) :
    isBlank c = false := by
  unfold continuesIdentifier at h
  rw [Bool.or_eq_true, Bool.or_eq_true, beq_iff_eq] at h
  rcases h with (rfl | h) | h
  · decide
  · exact inRanges_eq_false (by decide +kernel) h
  · exact inRanges_eq_false (by decide +kernel) h

theorem not_mem_delimiters_of_continuesIdentifier {c : Char} (h : continuesIdentifier c = true) :
    c ∉ delimiters := by
  have hnone : delimiters.any continuesIdentifier = false := by decide +kernel
  exact fun hc => List.any_eq_false.1 hnone c hc h

/-- What begins an identifier also continues one. -/
theorem continuesIdentifier_of_begins {c : Char} (h : beginsIdentifier c = true) :
    continuesIdentifier c = true := by
  unfold beginsIdentifier at h
  rw [Bool.or_eq_true, Bool.or_eq_true, beq_iff_eq, beq_iff_eq] at h
  rcases h with (rfl | rfl) | h
  · decide
  · decide +kernel
  · simp [continuesIdentifier, h]

theorem isPlain_of_isIdentifier {text : List Char} (h : isIdentifier text = true) :
    IsPlain text := by
  cases text with
  | nil => cases h
  | cons c rest =>
    rw [isIdentifier, Bool.and_eq_true, List.all_eq_true] at h
    have hall : ∀ d ∈ c :: rest, continuesIdentifier d = true :=
      List.forall_mem_cons.2 ⟨continuesIdentifier_of_begins h.1, h.2⟩
    exact fun d hd => ⟨not_mem_delimiters_of_continuesIdentifier (hall d hd),
      isBlank_of_continuesIdentifier (hall d hd)⟩

theorem IsPlain.slash_not_mem {text : List Char} (h : IsPlain text) : '/' ∉ text :=
  fun hslash => (h '/' hslash).1 (by decide)

/-- Stripping leaves a text without blanks as it is. -/
theorem stripBlanks_of_isPlain {text : List Char} (h : IsPlain text) : stripBlanks text = text :=
  List.filter_eq_self.2 fun c hc => by simp [(h c hc).2]

/-! ## Segments -/

/-- One part of a path, which leads down. -/
structure IsSegment (part : List Char) : Prop where
  whole : '/' ∉ part
  named : isIdle part = false
  ne_upward : part ≠ upward

/-- A part with a character that is no dot leads down. -/
theorem isSegment_of_mem {part : List Char} {c : Char} (hwhole : '/' ∉ part) (hc : c ∈ part)
    (hdot : c ≠ '.') : IsSegment part where
  whole := hwhole
  named := by
    rw [isIdle, Bool.or_eq_false_iff, decide_eq_false_iff_not, decide_eq_false_iff_not]
    constructor
    · rintro rfl
      exact List.not_mem_nil hc
    · rintro rfl
      exact hdot (List.mem_singleton.1 hc)
  ne_upward := by
    rintro rfl
    simp [upward, hdot] at hc

theorem IsSegment.ne_nil {part : List Char} (h : IsSegment part) : part ≠ [] := by
  rintro rfl
  exact absurd h.named (by decide)

theorem pathParts_of_not_mem {part : List Char} (h : '/' ∉ part) : pathParts part = [part] := by
  induction part with
  | nil => rfl
  | cons c rest ih =>
    rw [List.mem_cons, not_or] at h
    rw [pathParts, if_neg (Ne.symm h.1), ih h.2]

theorem pathParts_ne_nil (path : List Char) : pathParts path ≠ [] := by
  cases path with
  | nil => simp [pathParts]
  | cons c rest =>
    rw [pathParts]
    split
    · exact List.cons_ne_nil _ _
    · split <;> exact List.cons_ne_nil _ _

theorem pathParts_append_slash (path rest : List Char) :
    pathParts (path ++ '/' :: rest) = pathParts path ++ pathParts rest := by
  induction path with
  | nil => rfl
  | cons c path ih =>
    rw [List.cons_append, pathParts, pathParts, ih]
    by_cases hc : c = '/'
    · simp [hc]
    · rw [if_neg hc, if_neg hc]
      cases hparts : pathParts path with
      | nil => exact absurd hparts (pathParts_ne_nil path)
      | cons p ps => rfl

/-- The path ends with a name. -/
def EndsNamed (path : String) : Prop :=
  ∃ c, path.toList.getLast? = some c ∧ c ≠ '/'

theorem isAbsolute_of_isSegment {name : String} (h : IsSegment name.toList) :
    isAbsolute name = false := by
  rw [isAbsolute, decide_eq_false_iff_not]
  exact fun hhead => h.whole (List.mem_of_mem_head? hhead)

theorem endsNamed_append {left name : String} (h : IsSegment name.toList) :
    EndsNamed (left ++ name) := by
  obtain ⟨c, hc⟩ := Option.isSome_iff_exists.1 (List.getLast?_isSome.2 h.ne_nil)
  refine ⟨c, ?_, ?_⟩
  · rw [String.toList_append, List.getLast?_append, hc, Option.some_or]
  · rintro rfl
    exact h.whole (List.mem_of_getLast? hc)

theorem endsNamed_joinPath {left name : String} (h : IsSegment name.toList) :
    EndsNamed (joinPath left name) := by
  rw [joinPath, isAbsolute_of_isSegment h]
  split
  · contradiction
  · split <;> exact endsNamed_append h

/-- A segment is joined with a slash. -/
theorem joinPath_of_isSegment {left name : String} (hleft : EndsNamed left)
    (h : IsSegment name.toList) : joinPath left name = left ++ "/" ++ name := by
  obtain ⟨c, hlast, hc⟩ := hleft
  have hne : left.isEmpty = false := by
    rw [Bool.eq_false_iff, ne_eq, String.isEmpty_iff]
    rintro rfl
    cases hlast
  rw [joinPath, isAbsolute_of_isSegment h, hne, hlast]
  simp [hc]

/-- **A segment is one more part of a path.** -/
theorem pathParts_joinPath {left name : String} (hleft : EndsNamed left)
    (h : IsSegment name.toList) :
    pathParts (joinPath left name).toList = pathParts left.toList ++ [name.toList] := by
  have htext : (left ++ "/" ++ name).toList = left.toList ++ '/' :: name.toList := by simp
  rw [joinPath_of_isSegment hleft h, htext, pathParts_append_slash,
    pathParts_of_not_mem h.whole]

end Rendezvous.Text
