import Stylebook.Evaluation
import Stylebook.Registry

namespace Stylebook

namespace Registry

/-- What a path leads to in the tree of one scope. A fault names the path `asked` for. -/
def locateIn (r : Registry) (asked : Path) (owner : Handle) (path : Path) :
    Except Fault Located :=
  match r.scope? owner with
  | none => .error (.unknownPath asked.text)
  | some scope =>
    match scope.find? path with
    | none => .error (.unknownPath asked.text)
    | some node =>
      match node.recipe? with
      | none => .error (.notInvokable asked.text)
      | some recipe =>
        let label := match scope.name with
          | some name => name ++ "." ++ path.text
          | none => path.text
        .ok ⟨owner, path.text, label, recipe⟩

/-- The namespace that the head of a path names, other than the scope that asks. -/
def otherNamespace? (r : Registry) (path : Path) (start : Handle) : Option Handle :=
  (r.handle? path.head).filter fun handle => handle != start

def locate (r : Registry) (path : Path) (start : Handle) : Except Fault Located :=
  match r.scope? start with
  | none => .error (.unknownPath path.text)
  | some scope =>
    if scope.declarations.contains path.head then r.locateIn path start path
    else
      match r.otherNamespace? path start with
      | some other =>
        match Path.ofSegments? path.tail with
        | none => .error (.notInvokable path.text)
        | some inner => r.locateIn path other inner
      | none =>
        if !start.isRoot && r.options.rootFallback then r.locateIn path Handle.root path
        else .error (.unknownPath path.text)

theorem locateIn_eq_ok {r : Registry} {asked path : Path} {owner : Handle} {found : Located}
    (h : r.locateIn asked owner path = .ok found) :
    ∃ scope node, r.scope? owner = some scope ∧ scope.find? path = some node ∧
      node.recipe? = some found.recipe ∧ found.owner = owner ∧ found.key = path.text := by
  rw [locateIn] at h
  cases hs : r.scope? owner with
  | none => rw [hs] at h; cases h
  | some scope =>
    simp only [hs] at h
    cases hn : scope.find? path with
    | none => rw [hn] at h; cases h
    | some node =>
      simp only [hn] at h
      cases hr : node.recipe? with
      | none => rw [hr] at h; cases h
      | some recipe =>
        simp only [hr] at h
        cases h
        exact ⟨scope, node, rfl, hn, hr, rfl, rfl⟩

theorem locate_eq_error {r : Registry} {path : Path} {start : Handle} {fault : Fault}
    (h : r.locate path start = .error fault) :
    fault = .unknownPath path.text ∨ fault = .notInvokable path.text := by
  have hin : ∀ owner inner, r.locateIn path owner inner = .error fault →
      fault = .unknownPath path.text ∨ fault = .notInvokable path.text := by
    intro owner inner h
    rw [locateIn] at h
    split at h
    · cases h; exact .inl rfl
    · split at h
      · cases h; exact .inl rfl
      · split at h
        · cases h; exact .inr rfl
        · cases h
  rw [locate] at h
  split at h
  · cases h; exact .inl rfl
  · split at h
    · exact hin _ _ h
    · split at h
      · split at h
        · cases h; exact .inr rfl
        · exact hin _ _ h
      · split at h
        · exact hin _ _ h
        · cases h; exact .inl rfl

/-- Whatever is located stands in the tree of a live scope, its owner, at the path of its key. -/
theorem locate_eq_ok {r : Registry} {path : Path} {start : Handle} {found : Located}
    (h : r.locate path start = .ok found) :
    ∃ scope inner node, r.scope? found.owner = some scope ∧ scope.find? inner = some node ∧
      node.recipe? = some found.recipe ∧ found.key = inner.text := by
  have hin : ∃ asked owner inner, r.locateIn asked owner inner = .ok found := by
    rw [locate] at h
    split at h
    · cases h
    · split at h
      · exact ⟨_, _, _, h⟩
      · split at h
        · split at h
          · cases h
          · exact ⟨_, _, _, h⟩
        · split at h
          · exact ⟨_, _, _, h⟩
          · cases h
  obtain ⟨asked, owner, inner, hin⟩ := hin
  obtain ⟨scope, node, hs, hn, hr, rfl, hk⟩ := locateIn_eq_ok hin
  exact ⟨scope, inner, node, hs, hn, hr, hk⟩

end Registry

end Stylebook
