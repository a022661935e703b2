import ScriptHost.Script.Operation

set_option autoImplicit false

/- What expressions and statements do. Evaluation follows the tree; the parts that do not, calls and
the rounds of loops, go through the frame of the running function, which knows how to call and how
often a loop may go round. -/
namespace ScriptHost.Script

/-- The cells of the variables in scope, the latest first. -/
abbrev Env := List Nat

/-- A function that is running: the arguments past its parameters, the calls that led to it, and
its means of calling and looping. -/
structure Frame where
  varargs : List Datum
  sites : List Site
  call : Call
  rounds : Nat

/-- The frame as performing what stands on a line. -/
def Frame.on (f : Frame) (line : Nat) : Context := ⟨some line, f.sites, f.call⟩

/-- How a statement ends: the next one follows, with the variables then in scope; the loop around
it is left; a label is jumped to; or the function returns, with values or as another call does. -/
inductive Signal where
  | next (env : Env)
  | broke
  | jump (label : Bytes) (env : Env)
  | returned (values : List Datum)
  | tail (site : Site) (callee : Datum) (args : List Datum)

/-- A place that can be assigned to. -/
inductive Place where
  | cell (id : Nat)
  | field (object key : Datum) (label : Option Label)

/-- The table of values from key one on, and of entries under keys that these do not cover. -/
def tableOf (positional : List Datum) (keyed : List (Datum × Datum)) : Table :=
  let covered (key : Datum) : Bool := match key.asKey with
    | .integer n => 1 ≤ n && n ≤ positional.length
    | _ => false
  keyed.foldl (fun t e => if covered e.1 then t else t.set e.1 e.2) (.ofList positional)

def newCells : List Datum → Run (List Nat)
  | [] => return []
  | value :: rest => return (← Run.newCell value) :: (← newCells rest)

/-- As many values as asked for, with nil for those that are missing. -/
def adjust (count : Nat) (values : List Datum) : List Datum :=
  values.take count ++ List.replicate (count - values.length) .nil

/-- The variables in scope after some are declared in order. -/
def declared (env : Env) (values : List Datum) : Run Env :=
  return (← newCells values).reverse ++ env

/-- Puts values into places, the last place first. -/
def assignAll (c : Context) : List Place → List Datum → Run Unit
  | [], _ => return ()
  | place :: places, values => do
      assignAll c places (values.drop 1)
      match place, values.headD .nil with
      | .cell id, value => Run.setCell id value
      | .field object key label, value => c.setIndex label object key value

/-- What a loop does with the end of a round: goes on, or ends the statement. -/
def roundEnd (env : Env) (onward : Run Signal) : Signal → Run Signal
  | .next _ => onward
  | .broke => return .next env
  | other => return other

def whileRounds (env : Env) (condition : Run Bool) (body : Run Signal) : Nat → Run Signal
  | 0 => throw .exhausted
  | rounds + 1 => do
      if ← condition then
        roundEnd env (whileRounds env condition body rounds) (← body)
      else return .next env

/-- A round of a loop that tests at its end yields whether the loop is done, if it came so far. -/
def repeatRounds (env : Env) (round : Run (Signal × Bool)) : Nat → Run Signal
  | 0 => throw .exhausted
  | rounds + 1 => do
      let (signal, done) ← round
      roundEnd env (if done then return .next env else repeatRounds env round rounds) signal

/-- The values of the variable of a counting loop: a first one, how many follow it, and the step. -/
inductive Count where
  | none
  | integers (first : Int) (more : Nat) (step : Int)
  | floats (first limit step : Binary64)

/-- The part of a counting loop that is not a number. -/
def failCount {α : Type} (c : Context) (what : String) (value : Datum) : Run α := do
  let name ← Run.typeName value
  c.fail (utf8 ("bad 'for' " ++ what ++ " (number expected, got ") ++ name ++ utf8 ")")

/-- The limit of a loop over integers; none if no integer is within it. -/
def integerLimit? (limit : Datum) (start step : Int) : Option Int :=
  let clipped : Option Int := match limit with
    | .integer n => some n
    | .float x =>
        if x.isNaN then none
        else if x.isInfinite then
          some (if x.isNegative then -Binary64.wordLimit else Binary64.wordLimit - 1)
        else some (if step < 0 then -(x.neg.floorInt) else x.floorInt)
    | _ => none
  clipped.filter fun n => if 0 < step then start ≤ n else n ≤ start

/-- The values that a counting loop goes through. -/
def countOf (c : Context) (start limit step : Datum) : Run Count := do
  match start, step with
  | .integer first, .integer stride =>
      if stride = 0 then c.fail (utf8 "'for' step is zero")
      match limit.asNumber? with
      | Option.none => failCount c "limit" limit
      | some limit =>
          match integerLimit? limit first stride with
          | Option.none => return .none
          | some last =>
              let last := max (-Binary64.wordLimit) (min last (Binary64.wordLimit - 1))
              return .integers first ((last - first) / stride).toNat stride
  | _, _ =>
      match limit.asNumber?.bind Datum.asFloat?, step.asNumber?.bind Datum.asFloat?,
        start.asNumber?.bind Datum.asFloat? with
      | Option.none, _, _ => failCount c "limit" limit
      | _, Option.none, _ => failCount c "step" step
      | _, _, Option.none => failCount c "initial value" start
      | some limit, some stride, some first =>
          if stride.unsigned = 0 then c.fail (utf8 "'for' step is zero")
          return .floats first limit stride

def integerRounds (env : Env) (body : Env → Run Signal) (step : Int) :
    Nat → Nat → Int → Run Signal
  | 0, _, _ => throw .exhausted
  | rounds + 1, more, n => do
      let signal ← body (← declared env [.integer n])
      let onward := match more with
        | 0 => return .next env
        | more + 1 => integerRounds env body step rounds more (n + step)
      roundEnd env onward signal

def floatRounds (env : Env) (body : Env → Run Signal) (limit step : Binary64) :
    Nat → Binary64 → Run Signal
  | 0, _ => throw .exhausted
  | rounds + 1, x => do
      let within := if Binary64.zero.less step then x.lessEqual limit else limit.lessEqual x
      if within then
        let signal ← body (← declared env [.float x])
        roundEnd env (floatRounds env body limit step rounds (x.add step)) signal
      else return .next env

def countRounds (f : Frame) (env : Env) (body : Env → Run Signal) : Count → Run Signal
  | .none => return .next env
  | .integers first more step => integerRounds env body step f.rounds more first
  | .floats first limit step => floatRounds env body limit step f.rounds first

/-- The rounds of a loop over what a function yields from a state and its last first result. -/
def eachRounds (c : Context) (env : Env) (count : Nat) (body : Env → Run Signal)
    (step state : Datum) : Nat → Datum → Run Signal
  | 0, _ => throw .exhausted
  | rounds + 1, control => do
      let label : Label := ⟨"for iterator", utf8 "for iterator"⟩
      let values ← c.invoke (some label) step [state, control]
      let next := values.headD .nil
      if next.isNil then return .next env
      else
        let signal ← body (← declared env (adjust count values))
        roundEnd env (eachRounds c env count body step state rounds next) signal

/-- A label of a block: its name, how many variables are in scope there, and what follows it. -/
structure Target where
  name : Bytes
  depth : Nat
  action : Frame → Env → Run Signal

/-- Follows jumps to the labels of a block until it ends in another way. -/
def followJumps (targets : List Target) (f : Frame) : Nat → Signal → Run Signal
  | 0, _ => throw .exhausted
  | rounds + 1, .jump label env =>
      match targets.find? (·.name == label) with
      | some target => do
          let signal ← target.action f (env.drop (env.length - target.depth))
          followJumps targets f rounds signal
      | none => return .jump label env
  | _, signal => return signal

/-- Does statements in order, and then what the jumps to their labels lead to. -/
def throughJumps (inOrder : Frame → Env → Run Signal) (targets : List Target) (f : Frame)
    (env : Env) : Run Signal := do
  followJumps targets f f.rounds (← inOrder f env)

/-- The end of a block inside another one: its variables are out of scope. -/
def leaveBlock (env : Env) : Signal → Signal
  | .next _ => .next env
  | signal => signal

mutual

/-- The values of an expression; all but calls and the arguments past the parameters have one. -/
def eval : Expr → Frame → Env → Run (List Datum)
  | .constant value => fun _ _ => return [value]
  | .varargs => fun f _ => return f.varargs
  | .var index _ _ => fun _ env => return [← Run.cell (env.getD index 0)]
  | .index object key line => fun f env => do
      let value ← eval object f env
      let key ← eval key f env
      return [← (f.on line).index object.label (value.headD .nil) (key.headD .nil)]
  | .call callee args line => fun f env => do
      let value ← eval callee f env
      let args ← evalAll args f env
      (f.on line).invoke callee.label (value.headD .nil) args
  | .send object method args selectLine line => fun f env => do
      let receiver := (← eval object f env).headD .nil
      let value ← (f.on selectLine).index object.label receiver (.string method)
      let args ← evalAll args f env
      (f.on line).invoke (some ⟨"method", method⟩) value (receiver :: args)
  | .function body => fun _ env => return [← Run.newClosure body env]
  | .binary op left right line => fun f env => do
      let a ← eval left f env
      let b ← eval right f env
      return [← (f.on line).binary op ⟨a.headD .nil, b.headD .nil, left.label, right.label⟩]
  | .unary op operand line => fun f env => do
      let value ← eval operand f env
      return [← (f.on line).unary op operand.label (value.headD .nil)]
  | .both left right => fun f env => do
      let value := (← eval left f env).headD .nil
      if value.truthy then return [(← eval right f env).headD .nil] else return [value]
  | .either left right => fun f env => do
      let value := (← eval left f env).headD .nil
      if value.truthy then return [value] else return [(← eval right f env).headD .nil]
  | .table items => fun f env => do
      let (positional, keyed) ← evalItems items f env
      return [← Run.newTable (tableOf positional keyed)]
  | .single inner => fun f env => return [(← eval inner f env).headD .nil]

/-- The values of a list of expressions: one of each, and all of the last. -/
def evalAll : List Expr → Frame → Env → Run (List Datum)
  | [] => fun _ _ => return []
  | [last] => fun f env => eval last f env
  | e :: rest => fun f env => do
      let value ← eval e f env
      return value.headD .nil :: (← evalAll rest f env)

/-- The values of the items of a table, without keys and with keys. -/
def evalItems : List Item → Frame → Env → Run (List Datum × List (Datum × Datum))
  | [] => fun _ _ => return ([], [])
  | [.positional last] => fun f env => return (← eval last f env, [])
  | .positional e :: rest => fun f env => do
      let value ← eval e f env
      let (positional, keyed) ← evalItems rest f env
      return (value.headD .nil :: positional, keyed)
  | .keyed key e line :: rest => fun f env => do
      let key := (← eval key f env).headD .nil
      let value ← eval e f env
      if key.isNil then (f.on line).fail (utf8 "table index is nil")
      if !Table.isKey key then (f.on line).fail (utf8 "table index is NaN")
      let (positional, keyed) ← evalItems rest f env
      return (positional, (key, value.headD .nil) :: keyed)

end

/-- The places that expressions stand for. -/
def evalPlaces : List Expr → Frame → Env → Run (List Place)
  | [], _, _ => return []
  | .var index _ _ :: rest, f, env => do
      return .cell (env.getD index 0) :: (← evalPlaces rest f env)
  | .index object key _ :: rest, f, env => do
      let value ← eval object f env
      let key ← eval key f env
      return .field (value.headD .nil) (key.headD .nil) object.label :: (← evalPlaces rest f env)
  | _ :: rest, f, env => evalPlaces rest f env

/-- The end of a function that returns values, or what a call does that it ends with. -/
def evalReturn : List Expr → Frame → Env → Run Signal
  | [.call callee args line], f, env => do
      let value ← eval callee f env
      let args ← evalAll args f env
      return .tail ⟨some line, callee.label⟩ (value.headD .nil) args
  | [.send object method args selectLine line], f, env => do
      let receiver := (← eval object f env).headD .nil
      let value ← (f.on selectLine).index object.label receiver (.string method)
      let args ← evalAll args f env
      return .tail ⟨some line, some ⟨"method", method⟩⟩ value (receiver :: args)
  | values, f, env => return .returned (← evalAll values f env)

mutual

/-- Does a statement. -/
def exec : Stmt → Frame → Env → Run Signal
  | .call e => fun f env => do
      let _ ← eval e f env
      return .next env
  | .locals count values => fun f env => do
      return .next (← declared env (adjust count (← evalAll values f env)))
  | .localFunction body => fun _ env => do
      let cell ← Run.newCell .nil
      Run.setCell cell (← Run.newClosure body (cell :: env))
      return .next (cell :: env)
  | .assign targets values line => fun f env => do
      let places ← evalPlaces targets f env
      let values ← evalAll values f env
      assignAll (f.on line) places values
      return .next env
  | .block body => fun f env => do
      return leaveBlock env (← throughJumps (execAll body) (targets body) f env)
  | .whileLoop condition body => fun f env =>
      whileRounds env (do return ((← eval condition f env).headD .nil).truthy)
        (throughJumps (execAll body) (targets body) f env) f.rounds
  | .repeatLoop body condition => fun f env =>
      repeatRounds env (do
        match ← throughJumps (execAll body) (targets body) f env with
        | .next inner => return (.next env, ((← eval condition f inner).headD .nil).truthy)
        | signal => return (signal, false)) f.rounds
  | .branch condition yes no => fun f env => do
      if ((← eval condition f env).headD .nil).truthy then
        return leaveBlock env (← throughJumps (execAll yes) (targets yes) f env)
      else return leaveBlock env (← throughJumps (execAll no) (targets no) f env)
  | .countLoop start limit step body line => fun f env => do
      let start ← eval start f env
      let limit ← eval limit f env
      let step ← eval step f env
      let count ← countOf (f.on line) (start.headD .nil) (limit.headD .nil) (step.headD .nil)
      countRounds f env (throughJumps (execAll body) (targets body) f) count
  | .eachLoop values count body line => fun f env => do
      let values ← evalAll values f env
      let state := values.getD 1 .nil
      eachRounds (f.on line) env count (throughJumps (execAll body) (targets body) f)
        (values.headD .nil) state f.rounds (values.getD 2 .nil)
  | .ret values => fun f env => evalReturn values f env
  | .breakLoop => fun _ _ => return .broke
  | .goto label => fun _ env => return .jump label env
  | .label _ _ => fun _ env => return .next env

/-- Does statements in order. -/
def execAll : List Stmt → Frame → Env → Run Signal
  | [] => fun _ env => return .next env
  | s :: rest => fun f env => do
      match ← exec s f env with
      | .next env => execAll rest f env
      | signal => return signal

/-- The labels among statements. -/
def targets : List Stmt → List Target
  | [] => []
  | .label name depth :: rest => ⟨name, depth, execAll rest⟩ :: targets rest
  | _ :: rest => targets rest

end

/-- Does the statements of a block. -/
def execBlock (body : List Stmt) : Frame → Env → Run Signal :=
  throughJumps (execAll body) (targets body)

end ScriptHost.Script
