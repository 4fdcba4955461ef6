import OneTwo.Diagnostic

/-!
A value together with the diagnostics of the computation that gave it, in the order in which they
arose. `value` and `records` are its two views: later steps see only the value, and the records of
a sequence are those of its parts, one after the other.
-/

namespace OneTwo

structure Logged (α : Type) where
  value : α
  records : List Diagnostic

namespace Logged

variable {α β : Type}

instance : Monad Logged where
  pure a := ⟨a, []⟩
  bind x f :=
    let y := f x.value
    ⟨y.value, x.records ++ y.records⟩

def log (record : Diagnostic) : Logged Unit :=
  ⟨(), [record]⟩

@[simp] theorem pure_value (a : α) : (pure a : Logged α).value = a := rfl

@[simp] theorem pure_records (a : α) : (pure a : Logged α).records = [] := rfl

@[simp] theorem bind_value (x : Logged α) (f : α → Logged β) :
    (x >>= f).value = (f x.value).value := rfl

@[simp] theorem bind_records (x : Logged α) (f : α → Logged β) :
    (x >>= f).records = x.records ++ (f x.value).records := rfl

@[simp] theorem map_value (f : α → β) (x : Logged α) : (f <$> x).value = f x.value := rfl

@[simp] theorem map_records (f : α → β) (x : Logged α) : (f <$> x).records = x.records := by
  simp [Functor.map]

@[simp] theorem log_records (record : Diagnostic) : (log record).records = [record] := rfl

instance : LawfulMonad Logged :=
  LawfulMonad.mk' Logged
    (fun x => by simp [Functor.map])
    (fun a f => by simp [bind, pure])
    (fun x f g => by simp [bind, List.append_assoc])

end Logged

/-- Any integer as a literal: one that is none counts as 1, which is worth a warning. -/
def Literal.recover (value : Int) : Logged Literal :=
  match ofInt? value with
  | some l => pure l
  | none => do
    Logged.log (.literalReplaced value)
    return one

end OneTwo
