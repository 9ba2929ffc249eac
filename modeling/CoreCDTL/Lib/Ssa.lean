import Mathlib.Control.Basic

/-!
# Straight-line functions in single assignment form

Functions of one block, as an instruction builder makes them: an integer made a pointer, a call
through a pointer, a return. Each instruction names a value of its own, and operands are arguments,
constants and such values.

* `Fn.run`: what a function does in a world that has native code at some addresses, with effects in
  any monad; `failure` for what the language leaves undefined (a pointer to no code, or to code of
  another type, a value of the wrong type).
* `forward`: the function that passes its arguments on to native code, with fixed ones in front.
  `forward_run`: it does exactly what the native code does.
-/

namespace CoreCDTL
namespace Ssa

inductive Ty where
  | i32
  | i64
  | ptr
  deriving DecidableEq, Repr

inductive Val where
  | i32 (v : BitVec 32)
  | i64 (v : BitVec 64)
  | ptr (v : BitVec 64)
  deriving DecidableEq, Repr

def Val.ty : Val → Ty
  | .i32 _ => .i32
  | .i64 _ => .i64
  | .ptr _ => .ptr

structure FnType where
  params : List Ty
  ret : Ty
  deriving DecidableEq, Repr

/-- An argument, a constant, or the value of an instruction before. -/
inductive Operand where
  | arg (i : Nat)
  | const (v : Val)
  | tmp (i : Nat)
  deriving DecidableEq, Repr

inductive Inst where
  | intToPtr (x : Operand)
  | call (ty : FnType) (callee : Operand) (args : List Operand)
  deriving DecidableEq, Repr

/-- A function of one block, which returns `ret`. -/
structure Fn where
  name : String
  ty : FnType
  body : List Inst
  ret : Operand
  deriving DecidableEq, Repr

/-- Native code of a type. -/
structure Native (m : Type → Type) where
  ty : FnType
  run : List Val → m { v : Val // v.ty = ty.ret }

/-- The native code at each address. -/
abbrev World (m : Type → Type) := BitVec 64 → Option (Native m)

section

variable {m : Type → Type} [Monad m]

def Operand.eval (args tmps : List Val) : Operand → Option Val
  | .arg i => args[i]?
  | .const v => some v
  | .tmp i => tmps[i]?

/-- A call of what is at `p`, as a function of type `ty`. -/
def callNative (W : World m) (ty : FnType) (p : Val) (args : List Val) : OptionT m Val :=
  match p with
  | .ptr a =>
    match W a with
    | some f =>
      if f.ty = ty ∧ args.map Val.ty = ty.params then OptionT.lift (Subtype.val <$> f.run args)
      else failure
    | none => failure
  | _ => failure

def Inst.run (W : World m) (args tmps : List Val) : Inst → OptionT m Val
  | .intToPtr x =>
    match x.eval args tmps with
    | some (.i64 v) => pure (.ptr v)
    | _ => failure
  | .call ty callee xs =>
    match callee.eval args tmps, xs.mapM (Operand.eval args tmps) with
    | some p, some vs => callNative W ty p vs
    | _, _ => failure

/-- The values of the instructions after those in `tmps`. -/
def runBody (W : World m) (args : List Val) : List Inst → List Val → OptionT m (List Val)
  | [], tmps => pure tmps
  | i :: is, tmps => do
    let v ← i.run W args tmps
    runBody W args is (tmps ++ [v])

def Fn.run (W : World m) (f : Fn) (args : List Val) : OptionT m Val :=
  if args.map Val.ty = f.ty.params then do
    let tmps ← runBody W args f.body []
    match f.ret.eval args tmps with
    | some v => pure v
    | none => failure
  else failure

/-- The function that calls the code at `addr` with `fixed` and its own arguments. -/
def forward (name : String) (params : List Ty) (ret : Ty) (fixed : List Val) (addr : BitVec 64) :
    Fn where
  name := name
  ty := ⟨params, ret⟩
  body := [
    .intToPtr (.const (.i64 addr)),
    .call ⟨fixed.map Val.ty ++ params, ret⟩ (.tmp 0)
      (fixed.map .const ++ (List.range params.length).map .arg)]
  ret := .tmp 1

/-! ## Operands -/

theorem mapM_const (args tmps vs : List Val) :
    (vs.map Operand.const).mapM (Operand.eval args tmps) = some vs := by
  induction vs with
  | nil => rfl
  | cons v vs ih => simp [List.mapM_cons, ih, Operand.eval]

theorem mapM_args (args tmps : List Val) (n : Nat) (hn : n ≤ args.length) :
    ((List.range n).map Operand.arg).mapM (Operand.eval args tmps) = some (args.take n) := by
  induction n with
  | zero => rfl
  | succ n ih =>
    have hget : args[n]? = some args[n] := List.getElem?_eq_getElem (by omega)
    rw [List.range_succ, List.map_append, List.mapM_append, ih (by omega), List.take_add_one, hget]
    simp [Operand.eval, hget]

/-! ## Passing on -/

/-- **A forwarding function does what the code behind it does**, with the fixed arguments in front:
the same value and the same effects, and nothing is undefined. -/
theorem forward_run [LawfulMonad m] {W : World m} {addr : BitVec 64} {f : Native m} {name : String}
    {params : List Ty} {ret : Ty} {fixed args : List Val} (hf : W addr = some f)
    (hty : f.ty = ⟨fixed.map Val.ty ++ params, ret⟩) (hargs : args.map Val.ty = params) :
    (forward name params ret fixed addr).run W args =
      OptionT.lift (Subtype.val <$> f.run (fixed ++ args)) := by
  have hlen : params.length = args.length := by rw [← hargs, List.length_map]
  have hops : (fixed.map Operand.const ++ (List.range params.length).map Operand.arg).mapM
      (Operand.eval args [.ptr addr]) = some (fixed ++ args) := by
    rw [List.mapM_append, mapM_const, mapM_args args _ _ (Nat.le_of_eq hlen), hlen, List.take_length]
    rfl
  have hcall : callNative W ⟨fixed.map Val.ty ++ params, ret⟩ (.ptr addr) (fixed ++ args) =
      OptionT.lift (Subtype.val <$> f.run (fixed ++ args)) := by
    simp only [callNative, hf]
    rw [if_pos ⟨hty, by rw [List.map_append, hargs]⟩]
  have hbody : runBody W args (forward name params ret fixed addr).body [] =
      OptionT.lift (Subtype.val <$> f.run (fixed ++ args)) >>= fun v =>
        pure [.ptr addr, v] := by
    simp only [forward, runBody, Inst.run, Operand.eval, pure_bind, List.nil_append]
    simp only [List.getElem?_cons_zero, hops, hcall]
    rfl
  unfold Fn.run
  rw [if_pos (show args.map Val.ty = (forward name params ret fixed addr).ty.params from hargs),
    hbody, bind_assoc]
  simp only [forward, pure_bind, Operand.eval, List.getElem?_cons_succ, List.getElem?_cons_zero,
    bind_pure]

end

end Ssa
end CoreCDTL
