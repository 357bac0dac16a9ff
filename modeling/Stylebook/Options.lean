import Stylebook.Value

namespace Stylebook

structure Options where
  /-- How many selector texts are remembered; none for all. -/
  cacheLimit : Option Nat
  /-- Whether a namespace that lacks a declaration looks among those of the root. -/
  rootFallback : Bool
deriving DecidableEq, Repr

namespace Options

def default : Options := ⟨none, true⟩

instance : Inhabited Options := ⟨default⟩

/-- A limit is null or a whole number of at most 64 bits. -/
def limitOfValue? : Value → Option (Option Nat)
  | .null => some none
  | .number (.integer (.ofNat n)) => if n ≤ Number.greatest then some (some n) else none
  | _ => none

def switchOfValue? : Value → Option Bool
  | .bool value => some value
  | _ => none

/-- Read an optional part: what is missing has its default, what is there must be right. -/
def part {α : Type} (read : Value → Option α) (missing : α) : Option Value → Option α
  | none => some missing
  | some value => read value

/-- Options are an object, whose other fields are ignored, or an array of the parts in order. -/
def ofValue? : Value → Option Options
  | .object fields => do
    let limit ← part limitOfValue? default.cacheLimit (fields.lookup "selector_cache_limit")
    let fallback ← part switchOfValue? default.rootFallback (fields.lookup "root_fallback")
    return ⟨limit, fallback⟩
  | .array items => do
    if 2 < items.length then none
    let limit ← part limitOfValue? default.cacheLimit items[0]?
    let fallback ← part switchOfValue? default.rootFallback items[1]?
    return ⟨limit, fallback⟩
  | _ => none

end Options

end Stylebook
