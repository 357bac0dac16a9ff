import Stylebook.Text.Pieces

namespace Stylebook

structure Path where
  head : String
  tail : List String
deriving DecidableEq, Repr

namespace Path

def segments (p : Path) : List String := p.head :: p.tail

/-- Any segments make a path, as long as there is one. -/
def ofSegments? : List String → Option Path
  | [] => none
  | head :: tail => some ⟨head, tail⟩

/-- The segments between the points of a text, without the empty ones. -/
def ofChars? (text : List Char) : Option Path :=
  ofSegments? ((words (· == '.') text).map String.ofList)

def parse? (text : String) : Option Path := ofChars? text.toList

def text (p : Path) : String := ".".intercalate p.segments

theorem ofSegments?_eq_some_iff {segments : List String} {p : Path} :
    ofSegments? segments = some p ↔ segments = p.segments := by
  cases segments with
  | nil => simp [ofSegments?, Path.segments]
  | cons head tail => cases p; simp [ofSegments?, Path.segments]

@[simp] theorem ofSegments?_segments (p : Path) : ofSegments? p.segments = some p :=
  ofSegments?_eq_some_iff.2 rfl

theorem segments_injective {p q : Path} (h : p.segments = q.segments) : p = q := by
  obtain ⟨h₁, h₂⟩ := List.cons.inj h
  cases p
  cases q
  cases h₁
  cases h₂
  rfl

theorem ofChars?_eq_some_iff {text : List Char} {p : Path} :
    ofChars? text = some p ↔ (words (· == '.') text).map String.ofList = p.segments :=
  ofSegments?_eq_some_iff

theorem mem_of_ofChars? {text : List Char} {p : Path} (h : ofChars? text = some p)
    {segment : String} (hsegment : segment ∈ p.segments) {c : Char} (hc : c ∈ segment.toList) :
    c ∈ text := by
  rw [← ofChars?_eq_some_iff.1 h] at hsegment
  obtain ⟨word, hword, rfl⟩ := List.mem_map.1 hsegment
  rw [String.toList_ofList] at hc
  exact (exists_mem_words.1 ⟨word, hword, hc⟩).1

theorem exists_of_mem {text : List Char} {c : Char} (hc : c ∈ text) (hpoint : (c == '.') = false) :
    ∃ p, ofChars? text = some p ∧ ∃ segment ∈ p.segments, c ∈ segment.toList := by
  have hfound : ∃ word ∈ words (· == '.') text, c ∈ word := exists_mem_words.2 ⟨hc, hpoint⟩
  obtain ⟨word, hword, hmem⟩ := hfound
  have hsegment : String.ofList word ∈ (words (· == '.') text).map String.ofList :=
    List.mem_map_of_mem hword
  cases hsegments : (words (· == '.') text).map String.ofList with
  | nil =>
    rw [hsegments] at hsegment
    cases hsegment
  | cons head tail =>
    rw [hsegments] at hsegment
    refine ⟨⟨head, tail⟩, ofChars?_eq_some_iff.2 hsegments, String.ofList word, hsegment, ?_⟩
    rwa [String.toList_ofList]

end Path

end Stylebook
