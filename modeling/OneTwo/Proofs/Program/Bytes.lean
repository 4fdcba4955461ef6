import OneTwo.Proofs.Except
import OneTwo.Proofs.Machine.Accepted

/-!
The bytes of a program name its tokens, one each: bytes are read as a program exactly if they are
the bytes of that program, and are refused for the first of them that names no token. The programs
that the stack check accepts are those of expressions, and each expression has its own; so the files
of accepted programs stand for the expressions, one for one.
-/

namespace OneTwo

namespace Token

variable {byte : UInt8}

theorem ofByte_eq_ok_iff {t : Token} : ofByte byte = .ok t ↔ t.byte = byte := by
  constructor
  · intro read
    simp only [ofByte] at read
    split at read <;> cases read <;> simp_all [Token.byte, ← UInt8.toNat_inj]
  · rintro rfl
    exact t.ofByte_byte

theorem exists_ofByte_eq_ok_iff : (∃ t, ofByte byte = .ok t) ↔ ¬4 < byte := by
  rw [ofByte, UInt8.lt_iff_toNat_lt]
  split <;> grind

theorem ofByte_eq_error_iff {error : InvalidToken} :
    ofByte byte = .error error ↔ 4 < byte ∧ ⟨byte⟩ = error := by
  rw [ofByte, UInt8.lt_iff_toNat_lt]
  split <;> grind

end Token

namespace Program

variable {bytes : List UInt8}

theorem ofBytes_eq_ok_iff {p : Program} : ofBytes bytes = .ok p ↔ p.toBytes = bytes := by
  rw [ofBytes, map_eq_ok_iff, toBytes]
  simp only [mapM_eq_ok_iff_map_eq fun _ _ => Token.ofByte_eq_ok_iff]
  constructor
  · rintro ⟨tokens, named, rfl⟩
    exact named
  · intro named
    exact ⟨p.tokens, named, rfl⟩

theorem exists_ofBytes_eq_ok_iff :
    (∃ p, ofBytes bytes = .ok p) ↔ bytes.find? (4 < ·) = none := by
  simp only [ofBytes, map_eq_ok_iff, List.find?_eq_none, decide_eq_true_eq,
    ← Token.exists_ofByte_eq_ok_iff, ← exists_mapM_eq_ok_iff]
  constructor
  · rintro ⟨-, tokens, read, -⟩
    exact ⟨tokens, read⟩
  · rintro ⟨tokens, read⟩
    exact ⟨_, tokens, read, rfl⟩

theorem ofBytes_eq_error_iff {byte : UInt8} :
    ofBytes bytes = .error ⟨byte⟩ ↔ bytes.find? (4 < ·) = some byte := by
  rw [ofBytes, map_eq_error_iff, mapM_eq_error_iff, List.find?_eq_some_iff_getElem]
  simp only [Token.ofByte_eq_error_iff, Token.exists_ofByte_eq_ok_iff, InvalidToken.mk.injEq,
    decide_eq_true_eq, Bool.not_eq_true', decide_eq_false_iff_not]
  constructor
  · rintro ⟨i, x, there, ⟨large, rfl⟩, before⟩
    obtain ⟨inside, there⟩ := List.getElem?_eq_some_iff.1 there
    refine ⟨large, i, inside, there, fun j below => before j below _ ?_⟩
    exact List.getElem?_eq_getElem (below.trans inside)
  · rintro ⟨large, i, inside, there, before⟩
    refine ⟨i, byte, List.getElem?_eq_some_iff.2 ⟨inside, there⟩, ⟨large, rfl⟩, ?_⟩
    intro j below y there
    obtain ⟨-, rfl⟩ := List.getElem?_eq_some_iff.1 there
    exact before j below

theorem toBytes_injective : Function.Injective toBytes := by
  intro p q same
  have read := ofBytes_toBytes p
  rw [same, ofBytes_toBytes] at read
  exact (Except.ok.inj read).symm

theorem exists_accepted_iff :
    (∃ p, ofBytes bytes = .ok p ∧ p.check = .ok ()) ↔ ∃ e : Expr, e.compile.toBytes = bytes := by
  simp only [ofBytes_eq_ok_iff, check_eq_ok_iff]
  constructor
  · rintro ⟨p, rfl, e, rfl⟩
    exact ⟨e, rfl⟩
  · rintro ⟨e, rfl⟩
    exact ⟨e.compile, rfl, e, rfl⟩

/-- Every buffer is refused for its first byte that names no token, or it is the bytes of a program.
It is accepted if that is the program of an expression, which then is the only one. -/
theorem ofBytes_of_any_bytes :
    (∀ p, ofBytes p.toBytes = .ok p) ∧
    (∀ bytes,
      (∀ byte, ofBytes bytes = .error ⟨byte⟩ ↔ bytes.find? (4 < ·) = some byte) ∧
      ((∃ p, ofBytes bytes = .ok p ∧ p.toBytes = bytes) ↔ bytes.find? (4 < ·) = none) ∧
      ((∃ p, ofBytes bytes = .ok p ∧ p.check = .ok ()) ↔
        ∃ e : Expr, e.compile.toBytes = bytes)) ∧
    Function.Injective fun e : Expr => e.compile.toBytes := by
  refine ⟨ofBytes_toBytes, fun bytes => ⟨fun byte => ofBytes_eq_error_iff, ?_,
    exists_accepted_iff⟩, toBytes_injective.comp Expr.compile_injective⟩
  rw [← exists_ofBytes_eq_ok_iff]
  exact exists_congr fun p => and_iff_left_of_imp ofBytes_eq_ok_iff.1

example : ofBytes [3, 9, 4, 5] = .error ⟨9⟩ ∧
    (Expr.apply .div (.literal .two) (.literal .one)).compile.toBytes = [3, 4, 2] := by
  decide +kernel

end Program

end OneTwo
