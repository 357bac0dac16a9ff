import Stylebook.Proofs.Selector.Grammar

namespace Stylebook

theorem words_intercalate (cut : Char → Bool) {c : Char} (hc : cut c = true)
    (parts : List (List Char)) : words cut ([c].intercalate parts) = parts.flatMap (words cut) := by
  induction parts with
  | nil => rfl
  | cons part rest ih =>
    cases rest with
    | nil => simp
    | cons next others =>
      rw [List.intercalate_cons_cons, List.append_assoc, List.singleton_append,
        words_append_cons cut part hc, ih]
      rfl

namespace Path

variable {p q : Path}

def IsCanonical (p : Path) : Prop :=
  ∀ segment ∈ p.segments, segment ≠ "" ∧ '.' ∉ segment.toList

theorem words_text (p : Path) :
    words (· == '.') p.text.toList =
      p.segments.flatMap fun segment => words (· == '.') segment.toList := by
  have htext : p.text.toList = ['.'].intercalate (p.segments.map String.toList) :=
    String.toList_intercalate
  rw [htext, words_intercalate _ (by decide), List.flatMap_map]

theorem isCanonical_of_ofChars? {text : List Char} (h : ofChars? text = some p) :
    p.IsCanonical := by
  intro segment hsegment
  rw [← ofChars?_eq_some_iff.1 h] at hsegment
  obtain ⟨word, hword, rfl⟩ := List.mem_map.1 hsegment
  constructor
  · simpa using ne_nil_of_mem_words hword
  · rw [String.toList_ofList]
    intro hpoint
    have huncut := (exists_mem_words.1 ⟨word, hword, hpoint⟩).2
    exact absurd huncut (by decide)

theorem IsCanonical.parse?_text (h : p.IsCanonical) : parse? p.text = some p := by
  have hwords : words (· == '.') p.text.toList = p.segments.map String.toList := by
    rw [words_text, List.map_eq_flatMap]
    apply List.flatMap_congr
    intro segment hsegment
    obtain ⟨hne, hpoint⟩ := h segment hsegment
    apply words_of_uncut
    · simpa using hne
    · intro c hc
      rw [beq_eq_false_iff_ne]
      rintro rfl
      exact hpoint hc
  apply ofChars?_eq_some_iff.2
  rw [hwords, List.map_map]
  simp [Function.comp_def]

theorem parse?_text_iff (p : Path) : parse? p.text = some p ↔ p.IsCanonical :=
  ⟨isCanonical_of_ofChars?, IsCanonical.parse?_text⟩

/-- Canonical paths are told apart by their texts. -/
theorem IsCanonical.eq_of_text_eq (hp : p.IsCanonical) (hq : q.IsCanonical)
    (h : p.text = q.text) : p = q := by
  have hread := hp.parse?_text
  rw [h, hq.parse?_text] at hread
  exact (Option.some.inj hread).symm

theorem IsCanonical.exists_of_mem_text (hp : p.IsCanonical) {c : Char} (hc : c ∈ p.text.toList)
    (hpoint : (c == '.') = false) : ∃ segment ∈ p.segments, c ∈ segment.toList := by
  obtain ⟨own, hown, hsegment⟩ := exists_of_mem hc hpoint
  obtain rfl : p = own := Option.some.inj (hp.parse?_text.symm.trans hown)
  exact hsegment

end Path

namespace Selector

variable {text : List Char} {paths : List Path} {p : Path}

theorem isCanonical_of_mem_expandChars (h : p ∈ expandChars text) : p.IsCanonical := by
  obtain ⟨word, _, hp⟩ := List.mem_filterMap.1 h
  exact Path.isCanonical_of_ofChars? hp

theorem unbroken_of_mem_expandChars (h : p ∈ expandChars text) {segment : String}
    (hsegment : segment ∈ p.segments) {c : Char} (hc : c ∈ segment.toList) :
    isSeparator c = false := by
  obtain ⟨word, hword, hp⟩ := List.mem_filterMap.1 h
  exact (exists_mem_words.1 ⟨word, hword, Path.mem_of_ofChars? hp hsegment hc⟩).2

theorem isWord_text_of_mem_expandChars (h : p ∈ expandChars text)
    (hbracketless : ∀ segment ∈ p.segments, '[' ∉ segment.toList) : IsWord p.text.toList := by
  have hcanonical := isCanonical_of_mem_expandChars h
  exact {
    nonempty := by
      intro hnil
      have hread : Path.ofChars? p.text.toList = some p := hcanonical.parse?_text
      rw [hnil] at hread
      cases hread
    unbroken := by
      intro c hc
      cases hpoint : c == '.' with
      | true =>
        rw [eq_of_beq hpoint]
        decide
      | false =>
        obtain ⟨segment, hsegment, hmem⟩ := hcanonical.exists_of_mem_text hc hpoint
        exact unbroken_of_mem_expandChars h hsegment hmem
    closed := by
      intro hc
      obtain ⟨segment, hsegment, hmem⟩ := hcanonical.exists_of_mem_text hc (by decide)
      exact hbracketless segment hsegment hmem }

theorem expandChars_text (hp : p.IsCanonical) (hword : IsWord p.text.toList) :
    expandChars p.text.toList = [p] := by
  have hread : Path.ofChars? p.text.toList = some p := hp.parse?_text
  have hplain := (Expression.plain hword).expandChars_eq
  rwa [hread] at hplain

theorem SetApart.expandChars_texts
    (h : SetApart (paths.map fun p => p.text.toList) text)
    (hpaths : ∀ p ∈ paths, p.IsCanonical ∧ IsWord p.text.toList) : expandChars text = paths := by
  have hclosed : ∀ part ∈ paths.map fun p => p.text.toList, Closed part := by
    intro part hpart
    obtain ⟨p, hp, rfl⟩ := List.mem_map.1 hpart
    exact closed_of_notMem (hpaths p hp).2.closed
  have hsingle : ∀ p ∈ paths, expandChars p.text.toList = [p] := by
    intro p hp
    obtain ⟨hcanonical, hword⟩ := hpaths p hp
    exact expandChars_text hcanonical hword
  rw [h.expandChars_eq hclosed, List.flatMap_map, List.flatMap_congr hsingle]
  exact List.flatMap_singleton' paths

/-- The paths of a selector are canonical, and their texts are expanded into them again. -/
theorem expanded_paths_spelled_back :
    (∀ (text : String), ∀ p ∈ expand text,
      p.segments ≠ [] ∧
      (∀ segment ∈ p.segments, segment ≠ "" ∧
        ∀ c ∈ segment.toList, c ≠ '.' ∧ isSeparator c = false) ∧
      Path.parse? p.text = some p) ∧
    (∀ text : String,
      (∀ p ∈ expand text, ∀ segment ∈ p.segments, '[' ∉ segment.toList) →
        ∀ spelled : String,
          SetApart ((expand text).map fun p => p.text.toList) spelled.toList →
            expand spelled = expand text) ∧
    ∀ p : Path, Path.parse? p.text = some p ↔ p.IsCanonical := by
  refine ⟨?_, ?_, Path.parse?_text_iff⟩
  · intro text p hp
    have hcanonical := isCanonical_of_mem_expandChars hp
    refine ⟨List.cons_ne_nil p.head p.tail, ?_, hcanonical.parse?_text⟩
    intro segment hsegment
    obtain ⟨hne, hpoint⟩ := hcanonical segment hsegment
    refine ⟨hne, ?_⟩
    intro c hc
    exact ⟨fun he => hpoint (he ▸ hc), unbroken_of_mem_expandChars hp hsegment hc⟩
  · intro text hbracketless spelled happart
    apply happart.expandChars_texts
    intro p hp
    exact ⟨isCanonical_of_mem_expandChars hp,
      isWord_text_of_mem_expandChars hp (hbracketless p hp)⟩

theorem header_and_title_spelled_back :
    expand "card[.header footer..title] box" =
      [⟨"card", ["header"]⟩, ⟨"card", ["footer", "title"]⟩, ⟨"box", []⟩] ∧
    expand ",card.header \t card.footer.title,,box " = expand "card[.header footer..title] box" ∧
    Path.parse? (Path.text ⟨"card.header", []⟩) ≠ some ⟨"card.header", []⟩ := by
  have hpaths : expand "card[.header footer..title] box" =
      [⟨"card", ["header"]⟩, ⟨"card", ["footer", "title"]⟩, ⟨"box", []⟩] := by decide +kernel
  obtain ⟨_, hspelled, hread⟩ := expanded_paths_spelled_back
  refine ⟨hpaths, ?_, ?_⟩
  · apply hspelled
    · rw [hpaths]
      decide +kernel
    · have hwords : words isSeparator ",card.header \t card.footer.title,,box ".toList =
          (expand "card[.header footer..title] box").map fun p => p.text.toList := by
        decide +kernel
      rw [← hwords]
      exact setApart_words _
  · rw [Ne, hread]
    intro hcanonical
    obtain ⟨_, hpoint⟩ := hcanonical "card.header" List.mem_cons_self
    exact hpoint (by decide)

end Selector

end Stylebook
