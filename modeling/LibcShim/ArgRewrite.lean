import Mathlib.Data.List.Basic

/-! `arg_rewrite_helper`: the arguments of a host function go through their rewriters one by one,
and a destructor tells each rewriter that the call is over. -/

namespace LibcShim.ArgRewrite

variable {σ ε α β ρ γ : Type}

/-- A C++ function: it changes a state, and it returns or throws. -/
abbrev Fun (σ ε γ : Type) := ExceptT ε (StateM σ) γ

theorem Fun.bind_eq {δ : Type} (x : Fun σ ε γ) (f : γ → Fun σ ε δ) (s : σ) :
    (x >>= f) s = match x s with
      | (.ok v, s) => f v s
      | (.error e, s) => (.error e, s) := by
  show (ExceptT.bind x f : Fun σ ε δ) s = _
  simp only [ExceptT.bind, ExceptT.mk, bind, StateT.bind, ExceptT.bindCont]
  rcases x s with ⟨r, s'⟩
  cases r <;> rfl

/-- An argument with its `arg_rewrite`.  `before` also leaves something in the rewriter object,
where `after` finds it.  The types stand for all those of the parameters at once. -/
structure Argument (σ ε α β ρ : Type) where
  arg : α
  before : α → Fun σ ε (β × ρ)
  after : ρ → α → σ → σ

def nopArgRewrite (x : α) : Argument σ ε α α Unit where
  arg := x
  before x := pure (x, ())
  after _ _ s := s

/-- The scope of a `destroy_invoker`: `t` is called when the scope is left, by a return or by an
exception. -/
def destroyInvoker (t : σ → σ) (scope : Fun σ ε γ) : Fun σ ε γ := fun s =>
  let (r, s) := scope s
  (r, t s)

/-- `arg_rewriter_impl::rewrite`. -/
def rewrite (invoke : List β → Fun σ ε γ) (rargs : List β) : List (Argument σ ε α β ρ) → Fun σ ε γ
  | [] => invoke rargs
  | a :: args => do
    let (value, rewritten) ← a.before a.arg
    destroyInvoker (a.after rewritten a.arg) (rewrite invoke (rargs ++ [value]) args)

def argRewriteHelper (ptr : List β → Fun σ ε γ) (args : List (Argument σ ε α β ρ)) : Fun σ ε γ :=
  rewrite ptr [] args

/-! ### A call with brackets around it -/

/-- What is there once the rewriters have run, up to the first that throws. -/
structure Prepared (σ ε β ρ : Type) where
  values : List β
  objects : List ρ
  thrown : Option ε
  state : σ

def prepare : List (Argument σ ε α β ρ) → σ → Prepared σ ε β ρ
  | [], s => ⟨[], [], none, s⟩
  | a :: args, s =>
    match a.before a.arg s with
    | (.error e, s) => ⟨[], [], some e, s⟩
    | (.ok (value, object), s) =>
      let p := prepare args s
      { p with values := value :: p.values, objects := object :: p.objects }

/-- The call, unless a rewriter threw. -/
def Prepared.call (p : Prepared σ ε β ρ) (invoke : List β → Fun σ ε γ) : Except ε γ × σ :=
  match p.thrown with
  | none => invoke p.values p.state
  | some e => (.error e, p.state)

/-- The `after`s, from right to left. -/
def conclude (args : List (Argument σ ε α β ρ)) (objects : List ρ) (s : σ) : σ :=
  (args.zip objects).foldr (fun (a, object) s => a.after object a.arg s) s

section Calls

variable {invoke : List β → Fun σ ε γ} {args : List (Argument σ ε α β ρ)} {s : σ}

theorem prepare_objects : (prepare args s).objects.length = (prepare args s).values.length := by
  induction args generalizing s with
  | nil => rfl
  | cons a args ih =>
    unfold prepare
    split
    · rfl
    · exact congrArg Nat.succ ih

theorem prepare_complete (h : (prepare args s).thrown = none) :
    (prepare args s).values.length = args.length := by
  induction args generalizing s with
  | nil => rfl
  | cons a args ih =>
    unfold prepare at h ⊢
    split at h
    · cases h
    · exact congrArg Nat.succ (ih h)

theorem prepare_partial {e : ε} (h : (prepare args s).thrown = some e) :
    (prepare args s).values.length < args.length := by
  induction args generalizing s with
  | nil => cases h
  | cons a args ih =>
    unfold prepare at h ⊢
    split at h
    · exact Nat.succ_pos _
    · exact Nat.succ_lt_succ (ih h)

theorem rewrite_cons (a : Argument σ ε α β ρ) (rargs : List β) :
    rewrite invoke rargs (a :: args) s =
      match a.before a.arg s with
      | (.error e, s) => (.error e, s)
      | (.ok (value, object), s) =>
        destroyInvoker (a.after object a.arg) (rewrite invoke (rargs ++ [value]) args) s := by
  rw [rewrite, Fun.bind_eq]
  rcases a.before a.arg s with ⟨r, s'⟩
  cases r <;> rfl

/-- The recursion is the rewriters, the call and the `after`s in a row. -/
theorem rewrite_eq (rargs : List β) : rewrite invoke rargs args s =
    let p := prepare args s
    let (r, s') := p.call fun values => invoke (rargs ++ values)
    (r, conclude args p.objects s') := by
  induction args generalizing rargs s with
  | nil =>
    show invoke rargs s = _
    simp only [prepare, Prepared.call, conclude, List.append_nil, List.zip_nil_left,
      List.foldr_nil]
    rfl
  | cons a args ih =>
    rw [rewrite_cons]
    unfold prepare
    rcases a.before a.arg s with ⟨r, s'⟩
    cases r with
    | error e => simp [Prepared.call, conclude]
    | ok r =>
      simp only [destroyInvoker, ih]
      simp [Prepared.call, conclude]

end Calls

/-! ### The order of a call -/

inductive Event (α β : Type) where
  | before (k : Nat) (arg : α)
  | invoke (values : List β)
  | after (k : Nat) (arg : α)
deriving DecidableEq, Repr

/-- Argument `k` with a log of what is called on it. -/
def Argument.logged (k : Nat) (a : Argument σ ε α β ρ) :
    Argument (σ × List (Event α β)) ε α β ρ where
  arg := a.arg
  before x := fun (s, log) =>
    let (r, s) := a.before x s
    (r, s, log ++ [.before k x])
  after object x := fun (s, log) => (a.after object x s, log ++ [.after k x])

def loggedCall (invoke : List β → Fun σ ε γ) : List β → Fun (σ × List (Event α β)) ε γ :=
  fun values (s, log) =>
    let (r, s) := invoke values s
    (r, s, log ++ [.invoke values])

/-- The arguments with a log, the first of them being number `j`. -/
def logged : Nat → List (Argument σ ε α β ρ) → List (Argument (σ × List (Event α β)) ε α β ρ)
  | _, [] => []
  | j, a :: args => a.logged j :: logged (j + 1) args

def befores : Nat → List (Argument σ ε α β ρ) → List (Event α β)
  | _, [] => []
  | j, a :: args => .before j a.arg :: befores (j + 1) args

def afters : Nat → List (Argument σ ε α β ρ) → List (Event α β)
  | _, [] => []
  | j, a :: args => .after j a.arg :: afters (j + 1) args

section Order

variable {args : List (Argument σ ε α β ρ)} {s : σ} {log : List (Event α β)}

/-- The `before` that throws is the last one that is called. -/
theorem prepare_logged (j : Nat) : prepare (logged j args) (s, log) =
    let p := prepare args s
    ⟨p.values, p.objects, p.thrown,
      (p.state, log ++ befores j (args.take (p.values.length + 1)))⟩ := by
  induction args generalizing j s log with
  | nil => simp [prepare, logged, befores]
  | cons a args ih =>
    simp only [logged, prepare, Argument.logged]
    rcases a.before a.arg s with ⟨r, s'⟩
    cases r with
    | error e => simp [befores]
    | ok r => simp [ih, befores]

theorem conclude_logged (j : Nat) {objects : List ρ} :
    conclude (logged j args) objects (s, log) =
      (conclude args objects s, log ++ (afters j (args.take objects.length)).reverse) := by
  induction args generalizing j objects with
  | nil => simp [conclude, logged, afters]
  | cons a args ih =>
    cases objects with
    | nil => simp [conclude, afters]
    | cons object objects =>
      show (a.logged j).after object a.arg (conclude (logged (j + 1) args) objects (s, log)) = _
      rw [ih]
      simp [Argument.logged, conclude, afters]

theorem call_logged (p : Prepared σ ε β ρ) (invoke : List β → Fun σ ε γ)
    (log : List (Event α β)) :
    ({ p with state := (p.state, log) } : Prepared (σ × List (Event α β)) ε β ρ).call
        (loggedCall invoke) =
      let (r, s') := p.call invoke
      (r, s', log ++ if p.thrown.isSome then [] else [.invoke p.values]) := by
  unfold Prepared.call
  cases p.thrown with
  | none => rfl
  | some e => simp

end Order

/-- `n` of the `before`s complete.  They and the one that throws, if there is one, run from left to
right; the function is called once or, after a throw, not at all; the `after`s of the first `n`
arguments run from right to left. -/
theorem argRewriteHelper_brackets (ptr : List β → Fun σ ε γ) (args : List (Argument σ ε α β ρ))
    (s : σ) :
    let p := prepare args s
    let n := p.values.length
    let (r, s') := p.call ptr
    argRewriteHelper ptr args s = (r, conclude args p.objects s') ∧
      argRewriteHelper (loggedCall ptr) (logged 0 args) (s, []) =
        (r, conclude args p.objects s',
          befores 0 (args.take (n + 1)) ++
            (if p.thrown.isSome then [] else [.invoke p.values]) ++
            (afters 0 (args.take n)).reverse) ∧
      p.objects.length = n ∧
      match p.thrown with
      | none => n = args.length
      | some _ => n < args.length := by
  intro p n
  have hLogged := call_logged p ptr (befores 0 (args.take (n + 1)))
  have hObjects : p.objects.length = n := prepare_objects
  rcases hCall : p.call ptr with ⟨r, s'⟩
  rw [hCall] at hLogged
  refine ⟨?_, ?_, hObjects, ?_⟩
  · simp only [argRewriteHelper, rewrite_eq, List.nil_append]
    show (match p.call ptr with | (r, s') => (r, conclude args p.objects s')) = _
    rw [hCall]
  · simp only [argRewriteHelper, rewrite_eq, prepare_logged, List.nil_append]
    rw [hLogged]
    simp only [conclude_logged]
    rw [← hObjects]
  · cases h : p.thrown with
    | none => exact prepare_complete h
    | some e => exact prepare_partial h

/-- Arguments that nothing rewrites reach the function as they are. -/
example : argRewriteHelper (fun values => pure values) [nopArgRewrite 3, nopArgRewrite 4] =
    (pure [3, 4] : Fun Unit String (List Nat)) := rfl

end LibcShim.ArgRewrite
