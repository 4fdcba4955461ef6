import OneTwo.Command.Console

/-!
Files behind paths, as a command finds and leaves them. How paths are spelt is left open: several
may lead to one file, and a file may be there that cannot be read. The laws say what is relied on.
What a read gives is the content of the file, a write that succeeds replaces the content of one
file, and one that fails changes nothing.

A directory of plain names is a file system. No other directory is below it, so a path with a
separator leads nowhere, and the path of the directory itself is no file.
-/

namespace OneTwo

class FileSystem (σ : Type) where
  /-- The bytes of the file that a path leads to, if it leads to one, readable or not. -/
  content : σ → String → Option (List UInt8)
  read : σ → String → Except FileError (List UInt8)
  write : σ → String → List UInt8 → Except FileError Unit × σ
  /-- The paths lead to one file, or would if it were there. -/
  SameFile : σ → String → String → Prop

open FileSystem in
class LawfulFileSystem (σ : Type) [FileSystem σ] : Prop where
  content_of_read {d : σ} {path : String} {bytes : List UInt8} :
    read d path = .ok bytes → content d path = some bytes
  content_of_write {d after : σ} {path : String} {bytes : List UInt8} :
    write d path bytes = (.ok (), after) → content after path = some bytes
  content_of_write_of_not_sameFile {d after : σ} {path other : String} {bytes : List UInt8} :
    write d path bytes = (.ok (), after) → ¬SameFile d path other →
      content after other = content d other
  eq_of_write_error {d after : σ} {path : String} {bytes : List UInt8} {error : FileError} :
    write d path bytes = (.error error, after) → after = d

namespace FileSystem

variable {σ : Type} [FileSystem σ] {d : σ} {path : String}

/-- Any bytes can be written to the path, and the file that is there then can be read. -/
def Accessible (d : σ) (path : String) : Prop :=
  ∀ bytes, ∃ after, write d path bytes = (.ok (), after) ∧ ∃ held, read after path = .ok held

theorem Accessible.read_write [LawfulFileSystem σ] (accessible : Accessible d path)
    (bytes : List UInt8) :
    ∃ after, write d path bytes = (.ok (), after) ∧ content after path = some bytes ∧
      read after path = .ok bytes := by
  obtain ⟨after, wrote, held, readable⟩ := accessible bytes
  have holds := LawfulFileSystem.content_of_write wrote
  have same : some bytes = some held :=
    holds.symm.trans (LawfulFileSystem.content_of_read readable)
  obtain rfl := Option.some.inj same
  exact ⟨after, wrote, holds, readable⟩

end FileSystem

structure Directory where
  files : List (String × List UInt8)

namespace Directory

def get? (d : Directory) (name : String) : Option (List UInt8) :=
  (d.files.find? fun file => file.1 == name).map Prod.snd

def put (d : Directory) (name : String) (bytes : List UInt8) : Directory :=
  ⟨(name, bytes) :: d.files.filter fun file => file.1 != name⟩

theorem get?_put (d : Directory) (name : String) (bytes : List UInt8) :
    (d.put name bytes).get? name = some bytes := by
  simp [put, get?]

theorem get?_put_of_ne (d : Directory) {name other : String} (bytes : List UInt8)
    (h : other ≠ name) : (d.put name bytes).get? other = d.get? other := by
  have differ : (name == other) = false := by simpa using h.symm
  simp only [put, get?, List.find?_cons, differ, List.find?_filter]
  congr 2
  funext file
  by_cases hf : file.1 = other
  · simp [hf, h]
  · simp [hf]

/-- Why a path cannot be the path of a file here, if it cannot. -/
def refusal? (path : String) : Option FileError :=
  if path = "." then some .isDirectory
  else if path.toList = [] ∨ '/' ∈ path.toList then some .notFound
  else none

instance : FileSystem Directory where
  content := get?
  read d path :=
    match refusal? path, d.get? path with
    | some error, _ => .error error
    | none, none => .error .notFound
    | none, some bytes => .ok bytes
  write d path bytes :=
    match refusal? path with
    | some error => (.error error, d)
    | none => (.ok (), d.put path bytes)
  SameFile _ path other := path = other

section Plain

variable (d : Directory) {path : String} (plain : refusal? path = none) (bytes : List UInt8)
include plain

theorem write_eq_put : FileSystem.write d path bytes = (.ok (), d.put path bytes) := by
  simp only [FileSystem.write, plain]

theorem read_put : FileSystem.read (d.put path bytes) path = .ok bytes := by
  simp only [FileSystem.read, plain, get?_put]

theorem accessible : FileSystem.Accessible d path := fun bytes =>
  ⟨d.put path bytes, d.write_eq_put plain bytes, bytes, d.read_put plain bytes⟩

end Plain

theorem eq_put_of_write {d after : Directory} {path : String} {bytes : List UInt8}
    (wrote : FileSystem.write d path bytes = (.ok (), after)) : after = d.put path bytes := by
  cases refused : refusal? path with
  | some error => simp [FileSystem.write, refused] at wrote
  | none =>
    have same := wrote.symm.trans (d.write_eq_put refused bytes)
    exact congrArg Prod.snd same

instance : LawfulFileSystem Directory where
  content_of_read {d path bytes} readable := by
    simp only [FileSystem.read] at readable
    split at readable
    · cases readable
    · cases readable
    · cases readable
      assumption
  content_of_write {d after path bytes} wrote := by
    obtain rfl := eq_put_of_write wrote
    exact d.get?_put path bytes
  content_of_write_of_not_sameFile {d after path other bytes} wrote apart := by
    obtain rfl := eq_put_of_write wrote
    exact d.get?_put_of_ne bytes (Ne.symm apart)
  eq_of_write_error {d after path bytes error} refused := by
    cases plain : refusal? path with
    | some error =>
      simp only [FileSystem.write, plain] at refused
      cases refused
      rfl
    | none => simp [FileSystem.write, plain] at refused

end Directory

end OneTwo
