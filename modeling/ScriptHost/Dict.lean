set_option autoImplicit false

namespace ScriptHost.Dict

variable {α β : Type}

def keys (d : List (String × α)) : List String := d.map Prod.fst

/-- Sets a key, at its place in the order or over its old value. -/
def insert (key : String) (value : α) : List (String × α) → List (String × α)
  | [] => [(key, value)]
  | (k, v) :: rest =>
      if key < k then (key, value) :: (k, v) :: rest
      else if key = k then (key, value) :: rest
      else (k, v) :: insert key value rest

/-- The dictionary of some pairs; of two pairs with one key the later counts. -/
def ofList (pairs : List (String × α)) : List (String × α) :=
  pairs.foldl (fun d pair => insert pair.1 pair.2 d) []

def get? (d : List (String × α)) (key : String) : Option α := d.lookup key

def contains (d : List (String × α)) (key : String) : Bool := (get? d key).isSome

/-- Every key is less than all that follow it. The order of texts is that of their code points,
which is also that of their UTF-8 bytes. -/
def Sorted (d : List (String × α)) : Prop := (keys d).Pairwise (· < ·)

@[simp] theorem keys_nil : keys ([] : List (String × α)) = [] := rfl

@[simp] theorem keys_cons (pair : String × α) (d : List (String × α)) :
    keys (pair :: d) = pair.1 :: keys d := rfl

end ScriptHost.Dict
