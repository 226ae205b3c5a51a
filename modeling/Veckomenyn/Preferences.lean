import Veckomenyn.Tools
import Veckomenyn.Weeks

/-!
The writers of the preferences.

The API and the first-run seed replace the row of a category as the agent's tool does, by a
DELETE and an INSERT in one transaction; the API also deletes a category. The table has no
unique constraint. Its timestamps are left out.
-/

namespace Veckomenyn.Preferences

open Rows Schema Sql Txn Tools

/-! ### The API -/

structure PreferenceOut where
  category : String
  bodyMd : String
deriving DecidableEq, Repr

structure PreferencePatch where
  bodyMd : Option String
deriving DecidableEq, Repr

inductive Resp where
  | error (code : ℕ) (text : String)
  | json (out : PreferenceOut)
  | noContent
deriving DecidableEq, Repr

def internalError : Resp := .error 500 "internal server error"

def lead (c : Char) : Bool := 'a' ≤ c && c ≤ 'z' || '0' ≤ c && c ≤ '9'

/-- `^[a-z0-9][a-z0-9_-]{0,63}$`. -/
def validCategory (s : String) : Bool :=
  match s.toList with
  | [] => false
  | c :: cs => lead c && cs.all (fun c => lead c || c = '_' || c = '-') && cs.length ≤ 63

/-- The `DELETE` of a category, with the number of rows it took. -/
def deletePreference (category : String) : Stmt ℕ where
  label := .deletePrinciple
  run d := do
    let (ws, _) ← (deletePrinciples category).run d
    .ok (ws, ws.length)

def selectPreference (category : String) : Stmt (Option PreferenceOut) := select .read fun d =>
  (d.principles.rows.find? fun r => r.category = category).map fun r => ⟨r.category, r.bodyMd⟩

section

variable {Q : Type} {A : Q → Type}

def handlePutPreference (category : String) (body : Except String PreferencePatch) :
    Prog Q A Resp Resp :=
  if !validCategory category then
    Prog.fail (.error 400 "bad category (expected a-z0-9_- slug)")
  else match body with
  | .error e => Prog.fail (.error 400 ("bad json: " ++ e))
  | .ok p => match p.bodyMd with
    | none => Prog.fail (.error 400 "body_md required")
    | some bodyMd => do
      Prog.transaction do
        Tx.query (deletePrinciples category) fun _ => internalError
        Tx.query (insertPrinciple category bodyMd) fun _ => internalError
      match ← Prog.query (selectPreference category) fun _ => internalError with
      | none => Prog.fail internalError
      | some out => pure (.json out)

def handleDeletePreference (category : String) : Prog Q A Resp Resp :=
  if !validCategory category then
    Prog.fail (.error 400 "bad category (expected a-z0-9_- slug)")
  else do
    let n ← Prog.query (deletePreference category) fun _ => internalError
    if n = 0 then Prog.fail (.error 404 "not found") else pure .noContent

/-! ### The seed -/

/-- A file of the embedded directory. -/
structure Entry where
  name : String
  isDir : Bool
  body : String
deriving DecidableEq, Repr

inductive SeedError where
  | delete (category : String) (e : DbError)
  | insert (category : String) (e : DbError)

/-- `strings.TrimSuffix(name, ".md")`, when the name ends so. -/
def stem? (name : String) : Option String :=
  if ".md".toList <:+ name.toList then some (String.ofList (name.toList.take (name.length - 3)))
  else none

/-- The loop over the entries, with the number of rows touched so far. -/
def seedFrom (count : ℕ) : List Entry → Prog Q A (ℕ × SeedError) ℕ
  | [] => pure count
  | e :: es =>
    if e.isDir then seedFrom count es
    else match stem? e.name with
    | none => seedFrom count es
    | some category => do
      Prog.transaction do
        Tx.query (deletePrinciples category) fun err => (count, SeedError.delete category err)
        Tx.query (insertPrinciple category e.body) fun err => (count, SeedError.insert category err)
      seedFrom (count + 1) es

/-- `seed.Preferences`, which answers with the count also when it fails. -/
def seedPreferences (entries : List Entry) : Prog Q A (ℕ × SeedError) ℕ := seedFrom 0 entries

end

end Veckomenyn.Preferences
