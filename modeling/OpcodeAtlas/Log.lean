import OpcodeAtlas.Text.Number

/-!
Log records. A `Logged` computation keeps the records it wrote when it fails.
-/

namespace OpcodeAtlas

/-- Severity, the most severe first. -/
inductive LogLevel where
  | error | warn | info | debug | trace
  deriving DecidableEq, Repr

namespace LogLevel

def name : LogLevel → Text
  | error => "ERROR"
  | warn => "WARN"
  | info => "INFO"
  | debug => "DEBUG"
  | trace => "TRACE"

/-- How much detail a level admits. -/
def detail : LogLevel → Nat
  | error => 1
  | warn => 2
  | info => 3
  | debug => 4
  | trace => 5

end LogLevel

structure LogRecord where
  level : LogLevel
  message : Text
  deriving DecidableEq, Repr

namespace LogRecord

def render (r : LogRecord) : Text := r.level.name ++ ": " ++ r.message

/-- The records up to a level; without a level there are none. -/
def upTo (limit : Option LogLevel) (log : List LogRecord) : List LogRecord :=
  log.filter fun r => r.level.detail ≤ (limit.map LogLevel.detail).getD 0

end LogRecord

/-- A computation that writes log records and may fail. -/
structure Logged (ε α : Type) where
  log : List LogRecord
  result : Except ε α

namespace Logged

variable {ε α β : Type}

def write (records : List LogRecord) : Logged ε Unit := ⟨records, .ok ()⟩

def fail (records : List LogRecord) (e : ε) : Logged ε α := ⟨records, .error e⟩

def bind (x : Logged ε α) (f : α → Logged ε β) : Logged ε β :=
  match x.result with
  | .ok a =>
    let y := f a
    ⟨x.log ++ y.log, y.result⟩
  | .error e => ⟨x.log, .error e⟩

instance : Monad (Logged ε) where
  pure a := ⟨[], .ok a⟩
  bind := bind

instance : LawfulMonad (Logged ε) :=
  LawfulMonad.mk' (Logged ε)
    (by
      rintro α ⟨log, result⟩
      cases result <;> simp [Functor.map, bind])
    (by simp [Bind.bind, Pure.pure, bind])
    (by
      rintro α β γ ⟨log, result⟩ f g
      cases result with
      | error e => rfl
      | ok a =>
        simp only [Bind.bind, bind]
        split <;> simp)

instance : MonadLift (Except ε) (Logged ε) := ⟨fun r => ⟨[], r⟩⟩

def mapError {ε₁ ε₂ : Type} (f : ε₁ → ε₂) (x : Logged ε₁ α) : Logged ε₂ α :=
  ⟨x.log, x.result.mapError f⟩

/-! ### Results -/

@[simp] theorem result_write (records : List LogRecord) :
    (write records : Logged ε Unit).result = .ok () := rfl

@[simp] theorem result_fail (records : List LogRecord) (e : ε) :
    (fail records e : Logged ε α).result = .error e := rfl

@[simp] theorem result_pure (a : α) : (pure a : Logged ε α).result = .ok a := rfl

@[simp] theorem result_liftM (x : Except ε α) : (liftM x : Logged ε α).result = x := rfl

@[simp] theorem result_bind (x : Logged ε α) (f : α → Logged ε β) :
    (x >>= f).result = x.result >>= fun a => (f a).result := by
  change (bind x f).result = _
  unfold bind
  cases x.result <;> rfl

@[simp] theorem result_map (g : α → β) (x : Logged ε α) : (g <$> x).result = g <$> x.result := by
  obtain ⟨log, result⟩ := x
  cases result <;> rfl

theorem result_mapM (f : α → Logged ε β) (as : List α) :
    (as.mapM f).result = as.mapM fun a => (f a).result := by
  induction as with
  | nil => rfl
  | cons a as ih => simp [List.mapM_cons, ih]

theorem result_foldlM (f : β → α → Logged ε β) (b : β) (as : List α) :
    (as.foldlM f b).result = as.foldlM (fun b a => (f b a).result) b := by
  induction as generalizing b with
  | nil => rfl
  | cons a as ih => simp [List.foldlM_cons, ih]

end Logged

end OpcodeAtlas
