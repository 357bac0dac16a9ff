import Stylebook.Declaration
import Stylebook.Script

namespace Stylebook

inductive Sketch
  | plain (declaration : Declaration)
  /-- The declaration that the filled template stands for. -/
  | filled (template : Template)
  | group (children : List (String × Sketch))

namespace Sketch

mutual

def draw (view : View) : Sketch → Declaration
  | .plain declaration => declaration
  | .filled template => Declaration.ofValue (template.fill view)
  | .group children => Declaration.ofChildren (drawAll view children)

def drawAll (view : View) : List (String × Sketch) → List (String × Declaration)
  | [] => []
  | (name, child) :: rest => (name, child.draw view) :: drawAll view rest

end

end Sketch

end Stylebook
