import Stylebook.Proofs.Selector.Memory

namespace Stylebook

theorem Dict.keys_insert_perm {α : Type} {d : Dict α} {key : String} (h : key ∉ d.keys)
    (value : α) : (d.insert key value).keys.Perm (key :: d.keys) := by
  apply (List.perm_ext_iff_of_nodup (Dict.nodup_keys _) (List.nodup_cons.2 ⟨h, d.nodup_keys⟩)).2
  intro name
  rw [List.mem_cons, Dict.mem_keys_iff, Dict.mem_keys_iff, Dict.get?_insert]
  by_cases hname : name = key <;> simp [hname]

namespace Memo

def askedBy (texts : List String) : Call → List String
  | .expand text => texts ++ [text]
  | .expandSelector selector => texts ++ selector.parts
  | .clear => []

/-- The texts that are asked for one by one after the last call that clears. -/
def asked (calls : List Call) : List String := calls.foldl askedBy []

/-- The first of the texts, each counted once, as many as the limit allows. -/
def firstTexts (limit : Option Nat) (texts : List String) : List String :=
  match limit with
  | none => texts.eraseDups
  | some limit => texts.eraseDups.take limit

variable {m m' m'' : Memo} {texts : List String} {text : String}

theorem eraseDups_concat_of_mem (h : text ∈ texts) :
    (texts ++ [text]).eraseDups = texts.eraseDups := by
  simp [List.eraseDups_append, List.removeAll, h]

theorem eraseDups_concat_of_notMem (h : text ∉ texts) :
    (texts ++ [text]).eraseDups = texts.eraseDups ++ [text] := by
  have hsingle : [text].eraseDups = [text] := rfl
  simp [List.eraseDups_append, List.removeAll, h, hsingle]

theorem mem_of_mem_firstTexts {limit : Option Nat} (h : text ∈ firstTexts limit texts) :
    text ∈ texts := by
  cases limit with
  | none => exact List.mem_eraseDups.1 h
  | some limit => exact List.mem_eraseDups.1 (List.mem_of_mem_take h)

theorem firstTexts_concat_of_mem {limit : Option Nat} (h : text ∈ texts) :
    firstTexts limit (texts ++ [text]) = firstTexts limit texts := by
  cases limit <;> simp only [firstTexts, eraseDups_concat_of_mem h]

theorem length_firstTexts_le (limit : Nat) (texts : List String) :
    (firstTexts (some limit) texts).length ≤ limit :=
  List.length_take_le limit texts.eraseDups

theorem firstTexts_of_room {limit : Option Nat}
    (h : ∀ n, limit = some n → (firstTexts limit texts).length < n) :
    firstTexts limit texts = texts.eraseDups := by
  cases limit with
  | none => rfl
  | some limit =>
    have hlt := h limit rfl
    rw [firstTexts, List.length_take] at hlt
    exact List.take_of_length_le (by omega)

theorem firstTexts_concat_of_room {limit : Option Nat} (hnew : text ∉ firstTexts limit texts)
    (hroom : ∀ n, limit = some n → (firstTexts limit texts).length < n) :
    firstTexts limit (texts ++ [text]) = firstTexts limit texts ++ [text] := by
  have hall := firstTexts_of_room hroom
  rw [hall, List.mem_eraseDups] at hnew
  have hconcat := eraseDups_concat_of_notMem hnew
  cases limit with
  | none => exact hconcat
  | some limit =>
    have hlt := hroom limit rfl
    rw [hall] at hlt ⊢
    rw [firstTexts, hconcat]
    apply List.take_of_length_le
    rw [List.length_append]
    exact hlt

theorem firstTexts_concat_of_full {limit : Nat}
    (hfull : limit ≤ (firstTexts (some limit) texts).length) (text : String) :
    firstTexts (some limit) (texts ++ [text]) = firstTexts (some limit) texts := by
  rw [firstTexts, List.length_take] at hfull
  rw [firstTexts, firstTexts, List.eraseDups_append]
  exact List.take_append_of_le_length (by omega)

def made (m : Memo) (text : String) : Slice := ⟨m.issued, Stylebook.expand text⟩

/-- What is stored is handed out again. Anything else is made, and kept while there is room. -/
inductive Expands (m : Memo) (text : String) : Slice × Memo → Prop
  | again {slice : Slice} (stored : m.stored.get? text = some slice) : m.Expands text (slice, m)
  | kept (missing : m.stored.get? text = none) (room : m.hasRoom = true) :
      m.Expands text
        (m.made text, ⟨m.limit, m.stored.insert text (m.made text), m.issued + 1⟩)
  | full (missing : m.stored.get? text = none) (full : ¬ m.hasRoom = true) :
      m.Expands text (m.made text, ⟨m.limit, m.stored, m.issued + 1⟩)

theorem expands (m : Memo) (text : String) : m.Expands text (m.expand text) := by
  rw [expand]
  cases hs : m.stored.get? text with
  | some slice => exact .again hs
  | none =>
    dsimp only
    split
    · next room => exact .kept hs room
    · next full => exact .full hs full

/-- What is stored is what was first asked for. -/
def Keeps (m : Memo) (texts : List String) : Prop :=
  m.stored.keys.Perm (firstTexts m.limit texts)

theorem lt_of_hasRoom (h : m.hasRoom = true) (n : Nat) (hlimit : m.limit = some n) :
    m.size < n := by
  rw [hasRoom, hlimit] at h
  exact of_decide_eq_true h

theorem exists_limit_of_full (h : ¬ m.hasRoom = true) : ∃ n, m.limit = some n ∧ n ≤ m.size := by
  rw [hasRoom] at h
  cases hlimit : m.limit with
  | none =>
    rw [hlimit] at h
    exact absurd rfl h
  | some n =>
    rw [hlimit] at h
    exact ⟨n, rfl, by simpa using h⟩

theorem Keeps.size_eq (h : m.Keeps texts) : m.size = (firstTexts m.limit texts).length := by
  rw [← h.length_eq, Dict.keys, List.length_map]
  rfl

theorem Keeps.expand (h : m.Keeps texts) (text : String) :
    (m.expand text).2.Keeps (texts ++ [text]) := by
  have hexpands := m.expands text
  generalize m.expand text = result at hexpands
  cases hexpands with
  | @again slice stored =>
    have hmem : text ∈ texts :=
      mem_of_mem_firstTexts (h.mem_iff.1 ((Dict.mem_keys_iff _ _).2 ⟨slice, stored⟩))
    rw [Keeps, firstTexts_concat_of_mem hmem]
    exact h
  | kept missing room =>
    have hnew : text ∉ m.stored.keys := Dict.notMem_keys_iff.2 missing
    have hsize := lt_of_hasRoom room
    rw [h.size_eq] at hsize
    rw [Keeps, firstTexts_concat_of_room (mt h.mem_iff.2 hnew) hsize]
    calc (m.stored.insert text (m.made text)).keys
      List.Perm _ (text :: m.stored.keys) := Dict.keys_insert_perm hnew _
      List.Perm _ (text :: firstTexts m.limit texts) := h.cons text
      List.Perm _ (firstTexts m.limit texts ++ [text]) := (List.perm_append_singleton text _).symm
  | full missing full =>
    obtain ⟨n, hlimit, hfull⟩ := exists_limit_of_full full
    rw [h.size_eq, hlimit] at hfull
    rw [Keeps, hlimit, firstTexts_concat_of_full hfull, ← hlimit]
    exact h

theorem Keeps.expandAll (h : m.Keeps texts) (more : List String) :
    (m.expandAll more).2.Keeps (texts ++ more) := by
  induction more generalizing m texts with
  | nil =>
    rw [List.append_nil]
    exact h
  | cons text rest ih =>
    rw [List.append_cons]
    exact ih (h.expand text)

theorem keeps_of_empty (hm : m.stored = ∅) : m.Keeps [] := by
  rw [Keeps, hm]
  cases m.limit with
  | none => exact .nil
  | some limit => rw [firstTexts, List.eraseDups_nil, List.take_nil]; exact .nil

theorem Keeps.call (h : m.Keeps texts) (c : Call) : (m.call c).2.Keeps (askedBy texts c) := by
  cases c with
  | expand text => exact h.expand text
  | expandSelector selector => exact h.expandAll selector.parts
  | clear => exact keeps_of_empty rfl

theorem Keeps.run (h : m.Keeps texts) (calls : List Call) :
    (m.run calls).2.Keeps (calls.foldl askedBy texts) := by
  induction calls generalizing m texts with
  | nil => exact h
  | cons c rest ih => exact ih (h.call c)

theorem limit_run (m : Memo) (calls : List Call) : (m.run calls).2.limit = m.limit :=
  run_keeps (P := fun now => now.limit = m.limit)
    (fun now h text => (limit_expand now text).trans h) (fun _ h => h) rfl calls

def Stays (m m' : Memo) : Prop :=
  ∀ text slice, m.stored.get? text = some slice → m'.stored.get? text = some slice

theorem Stays.trans (h : m.Stays m') (h' : m'.Stays m'') : m.Stays m'' :=
  fun text slice hs => h' text slice (h text slice hs)

theorem stays_expand (m : Memo) (text : String) : m.Stays (m.expand text).2 := by
  intro name slice hname
  have hexpands := m.expands text
  generalize m.expand text = result at hexpands
  cases hexpands with
  | again stored => exact hname
  | full missing full => exact hname
  | kept missing room =>
    have hne : name ≠ text := by
      rintro rfl
      rw [missing] at hname
      cases hname
    rw [Dict.get?_insert, if_neg hne]
    exact hname

theorem stays_call {c : Call} (hc : c ≠ .clear) (m : Memo) : m.Stays (m.call c).2 := by
  cases c with
  | expand text => exact stays_expand m text
  | expandSelector selector =>
    exact expandAll_keeps (P := m.Stays) (fun now h text => h.trans (stays_expand now text))
      (fun _ _ hs => hs) selector.parts
  | clear => exact absurd rfl hc

theorem stays_run {calls : List Call} (hcalls : ∀ c ∈ calls, c ≠ .clear) (m : Memo) :
    m.Stays (m.run calls).2 := by
  induction calls generalizing m with
  | nil => exact fun _ _ hs => hs
  | cons c rest ih =>
    have hrest := ih (fun c hc => hcalls c (List.mem_cons_of_mem _ hc)) (m.call c).2
    exact (stays_call (hcalls c List.mem_cons_self) m).trans hrest

/-- All slices that are stored were made before. -/
def Stamped (m : Memo) : Prop :=
  ∀ text slice, m.stored.get? text = some slice → slice.stamp < m.issued

/-- What is stored now was stored then, or it was made since. -/
structure Since (m m' : Memo) : Prop where
  issued_le : m.issued ≤ m'.issued
  stored : ∀ text slice, m'.stored.get? text = some slice →
    m.stored.get? text = some slice ∨ m.issued ≤ slice.stamp

theorem Since.refl (m : Memo) : m.Since m := ⟨Nat.le_refl _, fun _ _ hs => .inl hs⟩

theorem Since.trans (h : m.Since m') (h' : m'.Since m'') : m.Since m'' where
  issued_le := Nat.le_trans h.issued_le h'.issued_le
  stored text slice hs := by
    rcases h'.stored text slice hs with hs | hle
    · exact h.stored text slice hs
    · exact .inr (Nat.le_trans h.issued_le hle)

theorem since_expand (m : Memo) (text : String) : m.Since (m.expand text).2 := by
  have hexpands := m.expands text
  generalize m.expand text = result at hexpands
  cases hexpands with
  | again stored => exact .refl m
  | full missing full => exact ⟨Nat.le_succ _, fun _ _ hs => .inl hs⟩
  | kept missing room =>
    refine ⟨Nat.le_succ _, fun name slice hs => ?_⟩
    rw [Dict.get?_insert] at hs
    split at hs
    · cases hs
      exact .inr (Nat.le_refl _)
    · exact .inl hs

theorem since_clear (m : Memo) : m.Since m.clear :=
  ⟨Nat.le_refl _, fun _ _ hs => by cases hs⟩

theorem since_run (m : Memo) (calls : List Call) : m.Since (m.run calls).2 :=
  run_keeps (P := m.Since) (fun now h text => h.trans (since_expand now text))
    (fun now h => h.trans (since_clear now)) (.refl m) calls

theorem Stamped.stamp_lt (h : m.Stamped) (text : String) :
    (m.expand text).1.stamp < (m.expand text).2.issued := by
  have hexpands := m.expands text
  generalize m.expand text = result at hexpands
  cases hexpands with
  | again stored => exact h text _ stored
  | kept missing room => exact Nat.lt_succ_self _
  | full missing full => exact Nat.lt_succ_self _

theorem Stamped.expand (h : m.Stamped) (text : String) : (m.expand text).2.Stamped := by
  have hexpands := m.expands text
  generalize m.expand text = result at hexpands
  cases hexpands with
  | again stored => exact h
  | full missing full => exact fun name slice hs => Nat.lt_succ_of_lt (h name slice hs)
  | kept missing room =>
    intro name slice hs
    rw [Dict.get?_insert] at hs
    split at hs
    · cases hs
      exact Nat.lt_succ_self _
    · exact Nat.lt_succ_of_lt (h name slice hs)

theorem Stamped.run (h : m.Stamped) (calls : List Call) : (m.run calls).2.Stamped :=
  run_keeps (fun _ h text => h.expand text) (fun _ _ _ _ hs => by cases hs) h calls

theorem expand_eq_of_stored {slice : Slice}
    (h : (m.expand text).2.stored.get? text = some slice) : (m.expand text).1 = slice := by
  have hexpands := m.expands text
  generalize m.expand text = result at hexpands h
  cases hexpands with
  | again stored => exact Option.some.inj (stored.symm.trans h)
  | kept missing room =>
    rw [Dict.get?_insert, if_pos rfl] at h
    exact Option.some.inj h
  | full missing full =>
    rw [missing] at h
    cases h

theorem Since.le_stamp (h : m.Since m') (hmissing : m.stored.get? text = none) :
    m.issued ≤ (m'.expand text).1.stamp := by
  have hexpands := m'.expands text
  generalize m'.expand text = result at hexpands
  cases hexpands with
  | @again slice stored =>
    rcases h.stored text slice stored with hs | hle
    · rw [hmissing] at hs
      cases hs
    · exact hle
  | kept missing room => exact h.issued_le
  | full missing full => exact h.issued_le

theorem run_cons (m : Memo) (c : Call) (rest : List Call) :
    m.run (c :: rest) =
      ((m.call c).1 :: ((m.call c).2.run rest).1, ((m.call c).2.run rest).2) := rfl

theorem run_append (m : Memo) (before after : List Call) :
    m.run (before ++ after) =
      ((m.run before).1 ++ ((m.run before).2.run after).1, ((m.run before).2.run after).2) := by
  induction before generalizing m with
  | nil => rfl
  | cons c rest ih =>
    exact congrArg (fun later => ((m.call c).1 :: later.1, later.2)) (ih (m.call c).2)

theorem length_run (m : Memo) (calls : List Call) : (m.run calls).1.length = calls.length := by
  induction calls generalizing m with
  | nil => rfl
  | cons c rest ih => exact congrArg (· + 1) (ih (m.call c).2)

theorem le_stamp_of_cleared {calls : List Call} (h : .clear ∈ calls) (m : Memo) (text : String) :
    m.issued ≤ ((m.run calls).2.expand text).1.stamp := by
  obtain ⟨before, after, rfl⟩ := List.append_of_mem h
  rw [run_append]
  have hbefore := (since_run m before).issued_le
  have hcleared : (m.run before).2.clear.stored.get? text = none := rfl
  exact Nat.le_trans hbefore ((since_run (m.run before).2.clear after).le_stamp hcleared)

/-- A text has the same slice twice just when it is stored by the first time, and stays so. -/
theorem Stamped.stamp_eq_iff (h : m.Stamped) (text : String) (between : List Call) :
    (m.expand text).1.stamp = (((m.expand text).2.run between).2.expand text).1.stamp ↔
      (∀ c ∈ between, c ≠ .clear) ∧ text ∈ (m.expand text).2.stored.keys := by
  have hfirst := h.stamp_lt text
  constructor
  · intro hsame
    rw [hsame] at hfirst
    constructor
    · rintro c hc rfl
      exact absurd hfirst (Nat.not_lt.2 (le_stamp_of_cleared hc _ text))
    · cases hs : (m.expand text).2.stored.get? text with
      | some slice => exact (Dict.mem_keys_iff _ _).2 ⟨slice, hs⟩
      | none => exact absurd hfirst (Nat.not_lt.2 ((since_run _ between).le_stamp hs))
  · rintro ⟨hbetween, hstored⟩
    obtain ⟨slice, hs⟩ := (Dict.mem_keys_iff _ _).1 hstored
    have hlater := stays_run hbetween _ text slice hs
    have hsecond := expand_eq_of_stored (stays_expand _ text text slice hlater)
    rw [expand_eq_of_stored hs, hsecond]

theorem keeps_asked (limit : Option Nat) (calls : List Call) :
    ((new limit).run calls).2.stored.keys.Perm (firstTexts limit (asked calls)) := by
  have hkeeps := (keeps_of_empty (m := new limit) rfl).run calls
  rw [Keeps, limit_run] at hkeeps
  exact hkeeps

theorem size_run_le (limit : Nat) (calls : List Call) :
    ((new (some limit)).run calls).2.size ≤ limit := by
  have hkeeps := (keeps_of_empty (m := new (some limit)) rfl).run calls
  rw [hkeeps.size_eq, limit_run]
  exact length_firstTexts_le limit _

theorem run_twice (m : Memo) (before : List Call) (text : String) (between after : List Call) :
    (m.run (before ++ .expand text :: (between ++ .expand text :: after))).1 =
      (m.run before).1 ++ .slice ((m.run before).2.expand text).1 ::
        ((((m.run before).2.expand text).2.run between).1 ++
          .slice ((((m.run before).2.expand text).2.run between).2.expand text).1 ::
            (((((m.run before).2.expand text).2.run between).2.expand text).2.run after).1) := by
  rw [run_append, run_cons, run_append, run_cons]
  rfl

/-- A memory stores the first texts since it was cleared, and shares slices of what it stores. -/
theorem first_texts_kept_and_shared (limit : Option Nat) :
    (∀ calls,
      ((new limit).run calls).2.stored.keys.Perm (firstTexts limit (asked calls)) ∧
      ∀ n, limit = some n → ((new limit).run calls).2.size ≤ n) ∧
    (∀ calls later, (∀ c ∈ later, c ≠ .clear) → ∀ text slice,
      ((new limit).run calls).2.stored.get? text = some slice →
        ((new limit).run (calls ++ later)).2.stored.get? text = some slice) ∧
    ∀ before text between after, ∃ replies first replies' second replies'',
      ((new limit).run (before ++ .expand text :: (between ++ .expand text :: after))).1 =
        replies ++ .slice first :: (replies' ++ .slice second :: replies'') ∧
      replies.length = before.length ∧ replies'.length = between.length ∧
      first.paths = Stylebook.expand text ∧ second.paths = Stylebook.expand text ∧
      (first.stamp = second.stamp ↔ (∀ c ∈ between, c ≠ .clear) ∧
        text ∈ ((new limit).run (before ++ [.expand text])).2.stored.keys) := by
  refine ⟨?_, ?_, ?_⟩
  · intro calls
    refine ⟨keeps_asked limit calls, ?_⟩
    rintro n rfl
    exact size_run_le n calls
  · intro calls later hlater text slice hs
    rw [run_append]
    exact stays_run hlater _ text slice hs
  · intro before text between after
    have hsound : ((new limit).run before).2.Sound := (sound_of_empty rfl).run before
    have hstamped : ((new limit).run before).2.Stamped :=
      Stamped.run (fun _ _ hs => by cases hs) before
    refine ⟨_, _, _, _, _, run_twice (new limit) before text between after, length_run _ _,
      length_run _ _, hsound.paths_expand text, ?_, ?_⟩
    · exact ((hsound.expand text).run between).paths_expand text
    · rw [run_append]
      exact hstamped.stamp_eq_iff text between

/-- With room for one text, the box is kept that comes first after the clearing, and no card. -/
theorem box_shared_and_card_made_anew :
    let calls : List Call :=
      [.expandSelector (.list ["card", "box", "card"]), .clear, .expand "box"]
    ((new (some 1)).run calls).2.stored.keys = ["box"] ∧
    (∃ replies first replies' second replies'',
      ((new (some 1)).run (calls ++ .expand "box" :: ([.expand "card"] ++ [.expand "box"]))).1 =
          replies ++ .slice first :: (replies' ++ .slice second :: replies'') ∧
        first.stamp = second.stamp) ∧
    ∃ replies first replies' second replies'',
      ((new (some 1)).run (calls ++ .expand "card" :: ([.expand "box"] ++ [.expand "card"]))).1 =
          replies ++ .slice first :: (replies' ++ .slice second :: replies'') ∧
        first.stamp ≠ second.stamp := by
  intro calls
  obtain ⟨hkept, _, htwice⟩ := first_texts_kept_and_shared (some 1)
  have hbox : ∀ text, ((new (some 1)).run (calls ++ [.expand text])).2.stored.keys = ["box"] := by
    intro text
    have hfirst : firstTexts (some 1) (asked (calls ++ [.expand text])) = ["box"] := by
      simp [firstTexts, asked, askedBy, calls, List.eraseDups_cons]
    exact List.perm_singleton.1 (hfirst ▸ (hkept (calls ++ [.expand text])).1)
  refine ⟨List.perm_singleton.1 (hkept calls).1, ?_, ?_⟩
  · obtain ⟨replies, first, replies', second, replies'', hreplies, _, _, _, _, hsame⟩ :=
      htwice calls "box" [.expand "card"] []
    refine ⟨replies, first, replies', second, replies'', hreplies, hsame.2 ⟨?_, ?_⟩⟩
    · simp
    · simp [hbox]
  · obtain ⟨replies, first, replies', second, replies'', hreplies, _, _, _, _, hsame⟩ :=
      htwice calls "card" [.expand "box"] []
    refine ⟨replies, first, replies', second, replies'', hreplies, fun hstamp => ?_⟩
    have hcard := (hsame.1 hstamp).2
    simp [hbox] at hcard

end Memo

end Stylebook
