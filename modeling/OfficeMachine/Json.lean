namespace OfficeMachine

inductive Json where
  | null
  | bool (b : Bool)
  | int (n : Int)
  | real (text : String)
  | str (s : String)
  | arr (items : List Json)
  | obj (fields : List (String × Json))
  deriving Inhabited

def Json.variant? : Json → Option (String × Option Json)
  | .str s => some (s, none)
  | .obj [(s, j)] => some (s, some j)
  | _ => none

def Json.bare? (j : Json) : Option String :=
  match j.variant? with
  | some (s, none) => some s
  | some (s, some .null) => some s
  | _ => none

end OfficeMachine
