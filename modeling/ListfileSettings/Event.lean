import ListfileSettings.Decimal.Digits

/-!
# Events

What is reported while settings are loaded. An operation is `Logged`: it has the events that
happened, in order, also when it fails.
-/
namespace ListfileSettings

inductive Event where
  /-- A settings file was read. -/
  | read (path : String) (bytes : Nat)
  | discovered (path : String)
  /-- No settings file from this directory up to the root. -/
  | notDiscovered (start : String)
  | overriding (name : String) (key : String)
  /-- Settings are complete; the file is the last one that was read. -/
  | loaded (path : Option String)
  | rebound (key : String) (line : Nat)
  | ignored (key : String) (line : Option Nat)
  deriving DecidableEq, Repr

inductive Level where
  | debug
  | info
  | warn
  deriving DecidableEq, Repr

namespace Event

def level : Event → Level
  | read .. | discovered .. | notDiscovered .. | overriding .. => .debug
  | loaded .. => .info
  | rebound .. | ignored .. => .warn

def message : Event → String
  | read .. => "read formatter settings"
  | discovered .. => "discovered formatter settings"
  | notDiscovered .. => "no formatter settings found"
  | overriding .. => "applying environment override"
  | loaded (some _) => "formatter configuration loaded"
  | loaded none => "formatter configuration loaded without a settings file"
  | rebound .. => "key assigned more than once, last assignment wins"
  | ignored .. => "ignoring unknown configuration key"

def lineText : Option Nat → String
  | some n => "Some(" ++ Decimal.naturalText n ++ ")"
  | none => "None"

def fields : Event → List (String × String)
  | read path bytes => [("path", path), ("bytes", Decimal.naturalText bytes)]
  | discovered path => [("path", path)]
  | notDiscovered start => [("start", start)]
  | overriding name key => [("var", name), ("key", key)]
  | loaded (some path) => [("path", path)]
  | loaded none => []
  | rebound key line => [("key", key), ("line", Decimal.naturalText line)]
  | ignored key line => [("key", key), ("line", lineText line)]

end Event

/-- Why an operation ends without a value: it fails for a reason, or it is broken off and gives none. -/
inductive Halt (ε : Type) where
  | failure (e : ε)
  | crash
  deriving DecidableEq, Repr

def Halt.map (f : ε → ε') : Halt ε → Halt ε'
  | failure e => failure (f e)
  | crash => crash

/-- The events of an operation, in order, and how it ended. -/
structure Logged (ε α : Type) where
  events : List Event
  result : Except ε α

namespace Logged

def fail (e : ε) : Logged ε α := ⟨[], .error e⟩

def emit (e : Event) : Logged ε Unit := ⟨[e], .ok ()⟩

def ofExcept (x : Except ε α) : Logged ε α := ⟨[], x⟩

def andThen (x : Logged ε α) (f : α → Logged ε β) : Logged ε β :=
  match x.result with
  | .ok a => ⟨x.events ++ (f a).events, (f a).result⟩
  | .error e => ⟨x.events, .error e⟩

instance : Monad (Logged ε) where
  pure a := ⟨[], .ok a⟩
  bind := andThen

def mapFailure (f : ε → ε') (x : Logged ε α) : Logged ε' α := ⟨x.events, x.result.mapError f⟩

/-- The same operation as a part of one that can be broken off. -/
def lift (x : Logged ε α) : Logged (Halt ε) α := x.mapFailure .failure

instance : LawfulMonad (Logged ε) := LawfulMonad.mk' (Logged ε)
  (by
    rintro α ⟨es, r⟩
    cases r <;> simp [Functor.map, andThen])
  (by intros; rfl)
  (by
    rintro α β γ ⟨es, r⟩ f g
    cases r with
    | error e => rfl
    | ok a =>
      simp only [bind, andThen]
      split <;> simp_all)

theorem pure_eq (a : α) : (pure a : Logged ε α) = ⟨[], .ok a⟩ := rfl

theorem bind_ok {es : List Event} {a : α} {f : α → Logged ε β} :
    (⟨es, .ok a⟩ : Logged ε α) >>= f = ⟨es ++ (f a).events, (f a).result⟩ := rfl

theorem bind_error {es : List Event} {e : ε} {f : α → Logged ε β} :
    (⟨es, .error e⟩ : Logged ε α) >>= f = ⟨es, .error e⟩ := rfl

theorem mem_events_bind {x : Logged ε α} {f : α → Logged ε β} {e : Event} :
    e ∈ (x >>= f).events ↔ e ∈ x.events ∨ ∃ a, x.result = .ok a ∧ e ∈ (f a).events := by
  obtain ⟨es, r⟩ := x
  cases r with
  | error e' => simp [bind_error]
  | ok a => simp [bind_ok]

theorem lift_bind (x : Logged ε α) (f : α → Logged ε β) :
    (x >>= f).lift = x.lift >>= fun a => (f a).lift := by
  obtain ⟨es, r⟩ := x
  cases r <;> rfl

theorem lift_map (f : α → β) (x : Logged ε α) : (f <$> x).lift = f <$> x.lift := by
  rw [map_eq_pure_bind, map_eq_pure_bind, lift_bind]
  rfl

theorem result_bind (x : Logged ε α) (f : α → Logged ε β) :
    (x >>= f).result = x.result >>= fun a => (f a).result := by
  obtain ⟨es, r⟩ := x
  cases r <;> rfl

end Logged

end ListfileSettings
