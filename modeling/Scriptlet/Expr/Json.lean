import Scriptlet.Expr
import Scriptlet.Json
import Scriptlet.Number.Integer

/-!
The JSON form of an expression: an object whose `type` names the node, followed by its parts. A
literal carries its value in `v`. A float that is not finite has no JSON number and is written as
`null`, which does not read back; every other tree does. Reading ignores fields that it does not
know.
-/

namespace Scriptlet

def UnaryOp.name : UnaryOp → String
  | .neg => "Neg"
  | .not => "Not"

def BinaryOp.name : BinaryOp → String
  | .add => "Add"
  | .sub => "Sub"
  | .mul => "Mul"
  | .div => "Div"
  | .rem => "Rem"
  | .eq => "Eq"
  | .ne => "Ne"
  | .lt => "Lt"
  | .le => "Le"
  | .gt => "Gt"
  | .ge => "Ge"
  | .and => "And"
  | .or => "Or"
  | .coalesce => "Coalesce"

def UnaryOp.ofName? (name : String) : Option UnaryOp :=
  UnaryOp.all.find? fun op => op.name == name

def BinaryOp.ofName? (name : String) : Option BinaryOp :=
  BinaryOp.all.find? fun op => op.name == name

namespace Expr

private def node (kind : String) (fields : List (String × Json)) : Json :=
  .object (("type", .string kind) :: fields)

mutual

/-- Fields stand in the order of the parts, behind `type`. -/
def toJson : Expr → Json
  | .null => node "LitNull" []
  | .bool b => node "LitBool" [("v", .bool b)]
  | .int n => node "LitInt" [("v", .integer n.toInt)]
  | .float x => node "LitFloat" [("v", if x.isFinite then .float x else .null)]
  | .string s => node "LitStr" [("v", .string s)]
  | .list items => node "List" [("items", .array (itemsToJson items))]
  | .ident name => node "Ident" [("name", .string name)]
  | .member object property =>
      node "Member" [("object", object.toJson), ("property", .string property)]
  | .index object key => node "Index" [("object", object.toJson), ("index", key.toJson)]
  | .call callee args =>
      node "Call" [("callee", callee.toJson), ("args", .array (itemsToJson args))]
  | .unary op operand => node "Unary" [("op", .string op.name), ("operand", operand.toJson)]
  | .binary op left right =>
      node "Binary" [("op", .string op.name), ("left", left.toJson), ("right", right.toJson)]
  | .conditional test thenE elseE =>
      node "Conditional"
        [("test", test.toJson), ("then_e", thenE.toJson), ("else_e", elseE.toJson)]

def itemsToJson : List Expr → List Json
  | [] => []
  | e :: es => e.toJson :: itemsToJson es

end

/-- A field of a node with everything that it may be read as. -/
structure Part where
  json : Json
  expr : Option Expr
  items : Option (List Expr)

def Part.bool? (p : Part) : Option Bool :=
  match p.json with
  | .bool b => some b
  | _ => none

def Part.string? (p : Part) : Option String :=
  match p.json with
  | .string s => some s
  | _ => none

/-- Only an integer of 64 bits. -/
def Part.int? (p : Part) : Option Int64 :=
  match p.json with
  | .integer n => Number.int64? n
  | _ => none

/-- A float, or the float nearest to an integer. -/
def Part.float? (p : Part) : Option Float :=
  match p.json with
  | .float x => some x
  | .integer n => some (Number.ofMagnitude (n < 0) n.natAbs)
  | _ => none

/-- The name of an operator, alone or as the one key of an object that says nothing more. -/
def Part.opName? (p : Part) : Option String :=
  match p.json with
  | .string s => some s
  | .object [(name, .null)] | .object [(name, .object [])] => some name
  | _ => none

/-- Names of the parts of a node of some kind, in order. -/
def partNames : String → Option (List String)
  | "LitNull" => some []
  | "LitBool" | "LitInt" | "LitFloat" | "LitStr" => some ["v"]
  | "List" => some ["items"]
  | "Ident" => some ["name"]
  | "Member" => some ["object", "property"]
  | "Index" => some ["object", "index"]
  | "Call" => some ["callee", "args"]
  | "Unary" => some ["op", "operand"]
  | "Binary" => some ["op", "left", "right"]
  | "Conditional" => some ["test", "then_e", "else_e"]
  | _ => none

/-- The node of a kind with its parts in order. -/
def assemble (kind : String) (parts : List Part) : Option Expr :=
  match kind, parts with
  | "LitNull", [] => some .null
  | "LitBool", [v] => v.bool?.map .bool
  | "LitInt", [v] => v.int?.map .int
  | "LitFloat", [v] => v.float?.map .float
  | "LitStr", [v] => v.string?.map .string
  | "List", [items] => items.items.map .list
  | "Ident", [name] => name.string?.map .ident
  | "Member", [object, property] => do
      some (.member (← object.expr) (← property.string?))
  | "Index", [object, key] => do some (.index (← object.expr) (← key.expr))
  | "Call", [callee, args] => do some (.call (← callee.expr) (← args.items))
  | "Unary", [op, operand] => do
      some (.unary (← op.opName? >>= UnaryOp.ofName?) (← operand.expr))
  | "Binary", [op, left, right] => do
      some (.binary (← op.opName? >>= BinaryOp.ofName?) (← left.expr) (← right.expr))
  | "Conditional", [test, thenE, elseE] => do
      some (.conditional (← test.expr) (← thenE.expr) (← elseE.expr))
  | _, _ => none

/-- A node given by named fields. -/
def ofFields (fields : List (String × Part)) : Option Expr := do
  let kind ← fields.lookup "type" >>= Part.string?
  let names ← partNames kind
  assemble kind (← names.mapM fun name => fields.lookup name)

/-- A node given by its kind and its parts in a row. -/
def ofRow : List Part → Option Expr
  | kind :: parts => do assemble (← kind.string?) parts
  | [] => none

mutual

def readPart : Json → Part
  | .object fields => ⟨.object fields, ofFields (readFields fields), none⟩
  | .array items =>
      let parts := readItems items
      ⟨.array items, ofRow parts, parts.mapM (·.expr)⟩
  | json => ⟨json, none, none⟩

def readFields : List (String × Json) → List (String × Part)
  | [] => []
  | (key, value) :: more => (key, readPart value) :: readFields more

def readItems : List Json → List Part
  | [] => []
  | item :: more => readPart item :: readItems more

end

/-- The expression that a JSON value describes. -/
def ofJson? (json : Json) : Option Expr :=
  (readPart json).expr

end Expr

end Scriptlet
