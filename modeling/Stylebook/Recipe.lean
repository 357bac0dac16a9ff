import Stylebook.Body
import Stylebook.Handle

namespace Stylebook

inductive Recipe
  | fixed (attributes : Attributes)
  /-- Run a body, on behalf of the scope that owns it. -/
  | run (owner : Handle) (body : Body)
  | layered (base top : Recipe)

end Stylebook
