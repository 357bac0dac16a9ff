import Stylebook.Body.Run

namespace Stylebook

/-- What a query fixes for everything that it runs. -/
structure Setting where
  start : Handle
  lookup : String → Option Value
  mixin? : Handle → String → Option Mixin

/-- The context of a body: its owner decides on mixins and paths, the query on variables. -/
def Context.ofOwner (setting : Setting) (resolve : Handle → Path → Resolving) (owner : Handle) :
    Context where
  view := ⟨setting.lookup, [], fun
    | .ownerIsRoot => some owner.isRoot
    | .startIsRoot => some setting.start.isRoot
    | .ownerIsStart => some (owner == setting.start)⟩
  mixin? := setting.mixin? owner
  mixinView arguments := ⟨setting.lookup, arguments, fun
    | .startIsRoot => some setting.start.isRoot
    | _ => none⟩
  resolve := resolve owner

/-- The attributes of a recipe, given how paths are resolved from an owner. -/
def Recipe.invoke (setting : Setting) (resolve : Handle → Path → Resolving) : Recipe → Resolving
  | .fixed attributes => fun e => (.ok attributes, e)
  | .run owner body => body.run (Context.ofOwner setting resolve owner)
  | .layered base top => fun e =>
    match base.invoke setting resolve e with
    | (.error fault, e) => (.error fault, e)
    | (.ok below, e) =>
      match top.invoke setting resolve e with
      | (.error fault, e) => (.error fault, e)
      | (.ok above, e) => (.ok (below.merge above), e)

namespace Recipe

variable {setting : Setting} {resolve : Handle → Path → Resolving} {base : Recipe}
  {e after : Evaluation}

theorem invoke_layered_error {fault : Fault}
    (h : base.invoke setting resolve e = (.error fault, after)) (top : Recipe) :
    (layered base top).invoke setting resolve e = (.error fault, after) := by
  simp only [invoke, h]

theorem invoke_layered_ok {below : Attributes}
    (h : base.invoke setting resolve e = (.ok below, after)) (top : Recipe) :
    (layered base top).invoke setting resolve e =
      ((top.invoke setting resolve after).1.map below.merge,
        (top.invoke setting resolve after).2) := by
  simp only [invoke, h]
  cases top.invoke setting resolve after with
  | mk answer after => cases answer <;> rfl

end Recipe

end Stylebook
