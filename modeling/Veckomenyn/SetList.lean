import Veckomenyn.Dinners

/-!
The statement of the partial update, as it is put together.

The clauses and the arguments grow side by side, and a clause refers to its argument by the length
the list of arguments has by then. A date that is cleared takes no argument: one is appended and
sliced off again.
-/

namespace Veckomenyn.SetList

open Rows DateText Schema Sql Store Txn Dinners

/-! ### Clauses -/

inductive TextColumn where
  | isoWeek
  | status
  | notesMd
deriving DecidableEq, Repr

inductive DateColumn where
  | startDate
  | endDate
  | deliveryDate
  | orderDate
deriving DecidableEq, Repr

def TextColumn.name : TextColumn → String
  | isoWeek => "iso_week"
  | status => "status"
  | notesMd => "notes_md"

def DateColumn.name : DateColumn → String
  | startDate => "start_date"
  | endDate => "end_date"
  | deliveryDate => "delivery_date"
  | orderDate => "order_date"

/-- A clause of the SET list, with the number of its argument. -/
inductive Clause where
  | text (c : TextColumn) (n : ℕ)
  | date (c : DateColumn) (n : ℕ)
  | null (c : DateColumn)
deriving DecidableEq, Repr

namespace Clause

def sql : Clause → String
  | text c n => c.name ++ " = $" ++ n.repr
  | date c n => c.name ++ " = $" ++ n.repr ++ "::date"
  | null c => c.name ++ " = NULL"

def number : Clause → Option ℕ
  | text _ n => some n
  | date _ n => some n
  | null _ => none

end Clause

inductive Arg where
  | text (s : String)
  | id (n : ℤ)
  | nil
deriving DecidableEq, Repr

/-! ### Putting it together -/

/-- The two lists as far as they have come. -/
structure Parts where
  sets : List Clause
  args : List Arg
deriving DecidableEq, Repr

def add (c : TextColumn) (v : Option String) (p : Parts) : Parts :=
  match v with
  | none => p
  | some s =>
    let args := p.args ++ [.text s]
    ⟨p.sets ++ [.text c args.length], args⟩

def addDate (c : DateColumn) (v : Option String) (p : Parts) : Parts :=
  match v with
  | none => p
  | some s =>
    if s = "" then
      let args := p.args ++ [.nil]
      ⟨p.sets ++ [.null c], args.take (args.length - 1)⟩
    else
      let args := p.args ++ [.text s]
      ⟨p.sets ++ [.date c args.length], args⟩

def parts (u : WeekUpdate) : Parts :=
  let p := add .isoWeek u.isoWeek ⟨[], []⟩
  let p := addDate .startDate u.startDate p
  let p := addDate .endDate u.endDate p
  let p := addDate .deliveryDate u.deliveryDate p
  let p := addDate .orderDate u.orderDate p
  let p := add .status u.status p
  add .notesMd u.notesMd p

/-- The statement and its arguments, the last of which is the identity of the row. -/
structure Query where
  sets : List Clause
  idArg : ℕ
  args : List Arg
deriving DecidableEq, Repr

def Query.sql (q : Query) : String :=
  "UPDATE weeks SET " ++ ", ".intercalate (q.sets.map Clause.sql) ++ " WHERE id = $" ++ q.idArg.repr

def query (id : ℤ) (u : WeekUpdate) : Option Query :=
  let p := parts u
  if p.sets.length = 0 then none
  else
    let args := p.args ++ [.id id]
    some ⟨p.sets, args.length, args⟩

example : (query 7 ⟨some "2026-W17", none, some "2026-04-26", some "", none, some "ordered", none⟩).map
    Query.sql = some ("UPDATE weeks SET iso_week = $1, end_date = $2::date, delivery_date = NULL, " ++
      "status = $3 WHERE id = $4") := by decide

/-! ### What Postgres makes of it -/

/-- The argument `$n` of a text or a date. -/
def argText (args : List Arg) (n : ℕ) : Except DbError String :=
  match args[n - 1]? with
  | some (.text s) => .ok s
  | _ => .error (.outOfRange ("$" ++ n.repr))

def argId (args : List Arg) (n : ℕ) : Except DbError ℤ :=
  match args[n - 1]? with
  | some (.id k) => .ok k
  | _ => .error (.outOfRange ("$" ++ n.repr))

def setText (c : TextColumn) (v : String) (s : Sets) : Sets :=
  match c with
  | .isoWeek => { s with isoWeek := some v }
  | .status => { s with status := some v }
  | .notesMd => { s with notesMd := some v }

def setDate (c : DateColumn) (v : Option ℤ) (s : Sets) : Sets :=
  match c with
  | .startDate => { s with startDate := some v }
  | .endDate => { s with endDate := some v }
  | .deliveryDate => { s with deliveryDate := some v }
  | .orderDate => { s with orderDate := some v }

def Clause.bind (pg : Pg) (args : List Arg) (s : Sets) : Clause → Except DbError Sets
  | text c n => do
    let v ← argText args n
    .ok (setText c v s)
  | date c n => do
    let v ← argText args n
    let day ← Sql.date pg v
    .ok (setDate c (some day) s)
  | null c => .ok (setDate c none s)

def bindAll (pg : Pg) (args : List Arg) (sets : List Clause) : Except DbError Sets :=
  sets.foldlM (fun s c => c.bind pg args s) ⟨none, none, none, none, none, none, none⟩

/-- The clauses set the columns of the row, if it is there. -/
def Query.stmt (pg : Pg) (now : ℤ) (q : Query) : Stmt ℕ where
  label := .updateWeek
  run d := do
    let s ← bindAll pg q.args q.sets
    let id ← argId q.args q.idArg
    match d.weeks.find? id with
    | none => .ok ([], 0)
    | some w => do
      let w' ← s.assign now w
      .ok ([.week (.put w')], 1)

def updateWeek {m : Type → Type 1} [Monad m] (db : Stmt ℕ → m ℕ) (pg : Pg) (now id : ℤ)
    (u : WeekUpdate) : m ℕ :=
  match query id u with
  | none => pure 0
  | some q => db (q.stmt pg now)

/-! ### Numbers -/

/-- The clauses refer to the arguments in their order. -/
def Numbered (p : Parts) : Prop := p.sets.filterMap Clause.number = List.range' 1 p.args.length

lemma numbered_add (c : TextColumn) (v : Option String) {p : Parts} (h : Numbered p) :
    Numbered (add c v p) := by
  cases v with
  | none => exact h
  | some s =>
    unfold Numbered at h ⊢
    simp only [add, List.filterMap_append, h, List.length_append, List.length_singleton,
      List.range'_concat]
    simp [Clause.number, Nat.add_comm]

lemma numbered_addDate (c : DateColumn) (v : Option String) {p : Parts} (h : Numbered p) :
    Numbered (addDate c v p) := by
  cases v with
  | none => exact h
  | some s =>
    unfold Numbered at h ⊢
    simp only [addDate]
    split_ifs
    · -- the argument appended is sliced off again
      simp [List.filterMap_append, h, Clause.number]
    · simp only [List.filterMap_append, h, List.length_append, List.length_singleton,
        List.range'_concat]
      simp [Clause.number, Nat.add_comm]

lemma numbered_parts (u : WeekUpdate) : Numbered (parts u) := by
  refine numbered_add _ _ (numbered_add _ _ ?_)
  refine numbered_addDate _ _ (numbered_addDate _ _ (numbered_addDate _ _
    (numbered_addDate _ _ ?_)))
  exact numbered_add _ _ rfl

/-! ### The numbers in the text -/

/-- The numbers after the dollar signs of a text. -/
def placeholders : List Char → List ℕ
  | [] => []
  | c :: cs =>
    if c = '$' then Nat.ofDigitChars 10 (cs.takeWhile Char.isDigit) 0 :: placeholders cs
    else placeholders cs

lemma placeholders_append {xs : List Char} (h : '$' ∉ xs) (ys : List Char) :
    placeholders (xs ++ ys) = placeholders ys := by
  induction xs with
  | nil => rfl
  | cons c xs ih =>
    rw [List.mem_cons, not_or] at h
    rw [List.cons_append, placeholders, if_neg (Ne.symm h.1), ih h.2]

/-- A number is read back, up to the first character that is no digit. -/
lemma placeholders_number (n : ℕ) {rest : List Char} (h : ∀ c ∈ rest.head?, c.isDigit = false) :
    placeholders ('$' :: (n.repr.toList ++ rest)) = n :: placeholders rest := by
  have hdigit : ∀ c ∈ n.repr.toList, c.isDigit = true := by
    rw [Nat.toList_repr]
    exact fun c hc => Nat.isDigit_of_mem_toDigits (by decide) (by decide) hc
  have hstop : rest.takeWhile Char.isDigit = [] := by
    cases rest with
    | nil => rfl
    | cons c cs => simp [h c rfl]
  have hdollar : '$' ∉ n.repr.toList := fun hc => absurd (hdigit _ hc) (by decide)
  rw [placeholders, if_pos rfl, placeholders_append hdollar, List.takeWhile_append_of_pos hdigit,
    hstop, List.append_nil, Nat.toList_repr, Nat.ofDigitChars_ten_toDigits]

lemma dollar_name (c : TextColumn) : '$' ∉ c.name.toList := by
  cases c <;> decide

lemma dollar_dateName (c : DateColumn) : '$' ∉ c.name.toList := by
  cases c <;> decide

lemma placeholders_clause (c : Clause) {rest : List Char} (h : ∀ x ∈ rest.head?, x.isDigit = false) :
    placeholders (c.sql.toList ++ rest) = c.number.toList ++ placeholders rest := by
  cases c with
  | text c n =>
    have hsql : (Clause.text c n).sql.toList ++ rest =
        (c.name.toList ++ " = ".toList) ++ '$' :: (n.repr.toList ++ rest) := by
      simp [Clause.sql]
    have hd : '$' ∉ c.name.toList ++ " = ".toList := by
      rw [List.mem_append, not_or]
      exact ⟨dollar_name c, by decide⟩
    rw [hsql, placeholders_append hd, placeholders_number n h]
    rfl
  | date c n =>
    have hsql : (Clause.date c n).sql.toList ++ rest =
        (c.name.toList ++ " = ".toList) ++ '$' :: (n.repr.toList ++ ("::date".toList ++ rest)) := by
      simp [Clause.sql]
    have hd : '$' ∉ c.name.toList ++ " = ".toList := by
      rw [List.mem_append, not_or]
      exact ⟨dollar_dateName c, by decide⟩
    rw [hsql, placeholders_append hd, placeholders_number n (by simp),
      placeholders_append (by decide)]
    rfl
  | null c =>
    have hsql : (Clause.null c).sql.toList ++ rest =
        (c.name.toList ++ " = NULL".toList) ++ rest := by
      simp [Clause.sql]
    have hd : '$' ∉ c.name.toList ++ " = NULL".toList := by
      rw [List.mem_append, not_or]
      exact ⟨dollar_dateName c, by decide⟩
    rw [hsql, placeholders_append hd]
    rfl

lemma placeholders_clauses (l : List Clause) {rest : List Char}
    (h : ∀ x ∈ rest.head?, x.isDigit = false) :
    placeholders ((", ".intercalate (l.map Clause.sql)).toList ++ rest) =
      l.filterMap Clause.number ++ placeholders rest := by
  induction l with
  | nil => rfl
  | cons c l ih =>
    have hnumber : (c :: l).filterMap Clause.number =
        c.number.toList ++ l.filterMap Clause.number := by
      rw [List.filterMap_cons]
      cases c.number <;> rfl
    cases l with
    | nil =>
      rw [hnumber]
      simpa using placeholders_clause c h
    | cons c' l =>
      have htext : (", ".intercalate ((c :: c' :: l).map Clause.sql)).toList ++ rest =
          c.sql.toList ++ (", ".toList ++
            ((", ".intercalate ((c' :: l).map Clause.sql)).toList ++ rest)) := by
        simp [String.intercalate_cons_cons]
      rw [htext, placeholders_clause c (by simp), placeholders_append (by decide), ih, hnumber,
        List.append_assoc]

lemma placeholders_dollar (xs ys : List Char) (hxs : xs = ys ++ ['$']) (hys : '$' ∉ ys) (n : ℕ) :
    placeholders (xs ++ n.repr.toList) = [n] := by
  have h : placeholders ('$' :: (n.repr.toList ++ [])) = n :: placeholders [] :=
    placeholders_number n (by simp)
  rw [List.append_nil] at h
  rw [hxs, List.append_assoc, placeholders_append hys, List.singleton_append, h]
  rfl

lemma placeholders_query (q : Query) :
    placeholders q.sql.toList = q.sets.filterMap Clause.number ++ [q.idArg] := by
  have hsql : q.sql.toList = "UPDATE weeks SET ".toList ++
      ((", ".intercalate (q.sets.map Clause.sql)).toList ++
        (" WHERE id = $".toList ++ q.idArg.repr.toList)) := by
    unfold Query.sql
    simp only [String.toList_append, List.append_assoc]
  have hlast := placeholders_dollar " WHERE id = $".toList " WHERE id = ".toList
    (by decide) (by decide) q.idArg
  have hhead : ∀ c ∈ (" WHERE id = $".toList ++ q.idArg.repr.toList).head?, c.isDigit = false := by
    simp
  rw [hsql, placeholders_append (by decide), placeholders_clauses _ hhead, hlast]

lemma query_eq {id : ℤ} {u : WeekUpdate} {q : Query} (h : query id u = some q) :
    q = ⟨(parts u).sets, (parts u).args.length + 1, (parts u).args ++ [.id id]⟩ := by
  simp only [query] at h
  split_ifs at h
  rw [← Option.some.inj h, List.length_append, List.length_singleton]

/-- The text refers to each argument once, in their order. -/
lemma placeholders_sql {id : ℤ} {u : WeekUpdate} {q : Query} (h : query id u = some q) :
    placeholders q.sql.toList = List.range' 1 q.args.length := by
  have hparts := numbered_parts u
  rw [placeholders_query, query_eq h, hparts]
  simp only [List.length_append, List.length_singleton, List.range'_concat]
  rw [Nat.add_comm]
  simp

/-! ### The values the clauses set -/

/-- With whatever arguments come after, the clauses so far set `x`. -/
def Binds (pg : Pg) (p : Parts) (x : Except DbError Sets) : Prop :=
  ∀ more, bindAll pg (p.args ++ more) p.sets = x

lemma bindAll_snoc (pg : Pg) (args : List Arg) (l : List Clause) (c : Clause) :
    bindAll pg args (l ++ [c]) = bindAll pg args l >>= fun s => c.bind pg args s := by
  rw [bindAll, List.foldlM_append]
  refine bind_congr fun s => ?_
  exact bind_pure _

lemma argText_last (args more : List Arg) (s : String) :
    argText (args ++ [.text s] ++ more) (args ++ [Arg.text s]).length = .ok s := by
  rw [argText, List.length_append, List.length_singleton, Nat.add_sub_cancel, List.append_assoc,
    List.getElem?_append_right (le_refl _), Nat.sub_self]
  rfl

lemma argId_last (args : List Arg) (id : ℤ) :
    argId (args ++ [.id id]) (args.length + 1) = .ok id := by
  rw [argId, Nat.add_sub_cancel, List.getElem?_append_right (le_refl _), Nat.sub_self]
  rfl

variable {pg : Pg} {p : Parts} {x : Except DbError Sets}

lemma binds_add (c : TextColumn) (v : Option String) (h : Binds pg p x) :
    Binds pg (add c v p) (x >>= fun s => .ok (v.elim s fun t => setText c t s)) := by
  intro more
  cases v with
  | none =>
    have hx : (x >>= fun s => .ok (Option.elim none s fun t => setText c t s)) = x := by
      cases x <;> rfl
    rw [hx]
    exact h more
  | some t =>
    have hargs : (add c (some t) p).args = p.args ++ [.text t] := rfl
    have hsets : (add c (some t) p).sets =
        p.sets ++ [.text c (p.args ++ [Arg.text t]).length] := rfl
    rw [hargs, hsets, bindAll_snoc, List.append_assoc, h]
    refine bind_congr fun s => ?_
    rw [Clause.bind, ← List.append_assoc, argText_last]
    rfl

/-- A cleared date, too, leaves the numbers of the clauses what they were. -/
lemma binds_addDate (c : DateColumn) (v : Option String) (h : Binds pg p x) :
    Binds pg (addDate c v p) (x >>= fun s =>
      Store.addDate pg v >>= fun o => .ok (o.elim s fun day => setDate c day s)) := by
  intro more
  cases v with
  | none =>
    have hx : (x >>= fun s => Store.addDate pg none >>= fun o =>
        .ok (o.elim s fun day => setDate c day s)) = x := by
      cases x <;> rfl
    rw [hx]
    exact h more
  | some t =>
    by_cases ht : t = ""
    · have hargs : (addDate c (some t) p).args = p.args := by simp [addDate, ht]
      have hsets : (addDate c (some t) p).sets = p.sets ++ [.null c] := by simp [addDate, ht]
      rw [hargs, hsets, bindAll_snoc, h]
      refine bind_congr fun s => ?_
      rw [Store.addDate, if_pos ht]
      rfl
    · have hargs : (addDate c (some t) p).args = p.args ++ [.text t] := by simp [addDate, ht]
      have hsets : (addDate c (some t) p).sets =
          p.sets ++ [.date c (p.args ++ [Arg.text t]).length] := by simp [addDate, ht]
      rw [hargs, hsets, bindAll_snoc, List.append_assoc, h]
      refine bind_congr fun s => ?_
      rw [Clause.bind, ← List.append_assoc, argText_last, Store.addDate, if_neg ht]
      change (Sql.date pg t >>= fun day => .ok (setDate c (some day) s)) = _
      rcases Sql.date pg t with e | day <;> rfl

/-- The clauses set what the update says. -/
lemma binds_parts (pg : Pg) (u : WeekUpdate) : Binds pg (parts u) (Store.sets pg u) := by
  have hnil : Binds pg ⟨[], []⟩ (.ok ⟨none, none, none, none, none, none, none⟩) := fun _ => rfl
  have h := binds_add .isoWeek u.isoWeek hnil
  have h := binds_addDate .startDate u.startDate h
  have h := binds_addDate .endDate u.endDate h
  have h := binds_addDate .deliveryDate u.deliveryDate h
  have h := binds_addDate .orderDate u.orderDate h
  have h := binds_add .status u.status h
  have h := binds_add .notesMd u.notesMd h
  intro more
  have hok {α β : Type} (a : α) (f : α → Except DbError β) : (.ok a >>= f) = f a := rfl
  rw [parts, h, Store.sets]
  simp only [bind_assoc, hok]
  refine bind_congr fun a => bind_congr fun b => bind_congr fun c => bind_congr fun e => ?_
  cases u.isoWeek <;> cases a <;> cases b <;> cases c <;> cases e <;> cases u.status <;>
    cases u.notesMd <;> rfl

/-! ### The statement -/

lemma sets_add (c : TextColumn) (v : Option String) (p : Parts) :
    (add c v p).sets = [] ↔ p.sets = [] ∧ v = none := by
  cases v <;> simp [add]

lemma sets_addDate (c : DateColumn) (v : Option String) (p : Parts) :
    (addDate c v p).sets = [] ↔ p.sets = [] ∧ v = none := by
  cases v with
  | none => simp [addDate]
  | some t =>
    rw [addDate]
    split_ifs <;> simp

lemma sets_parts (u : WeekUpdate) : (parts u).sets = [] ↔ u.isEmpty = true := by
  simp only [parts, sets_add, sets_addDate, WeekUpdate.isEmpty, Bool.and_eq_true,
    Option.isNone_iff_eq_none, true_and]

/-- **The statement** that is put together is the update. -/
theorem stmt_eq (pg : Pg) (now id : ℤ) {u : WeekUpdate} {q : Query} (h : query id u = some q) :
    q.stmt pg now = updateWeekStmt pg now id u := by
  rw [query_eq h, Query.stmt, updateWeekStmt]
  congr 1
  funext d
  simp only
  rw [binds_parts pg u, argId_last]
  rfl

theorem updateWeek_eq {m : Type → Type 1} [Monad m] (db : Stmt ℕ → m ℕ) (pg : Pg) (now id : ℤ)
    (u : WeekUpdate) : updateWeek db pg now id u = Store.updateWeek db pg now id u := by
  have hsets := sets_parts u
  rw [updateWeek, Store.updateWeek]
  rcases hq : query id u with _ | q
  · have hempty : u.isEmpty = true := by
      rw [← hsets, ← List.length_eq_zero_iff]
      by_contra hne
      simp [query, hne] at hq
    rw [if_pos hempty]
  · have hempty : ¬u.isEmpty = true := by
      rw [← hsets, ← List.length_eq_zero_iff]
      intro hz
      simp [query, hz] at hq
    rw [if_neg hempty]
    simp only [stmt_eq pg now id hq]

/-! ### The update it should be -/

/-- A date column that may be NULL, after an update of it. -/
def NullableSet (pg : Pg) (v : Option String) (cur new : Option ℤ) : Prop :=
  match v with
  | none => new = cur
  | some s => if s = "" then new = none else ∃ day, pg.castDate s = some day ∧ new = some day

/-- `w'` is `w` with the fields of the update that are there. -/
structure PartialUpdate (pg : Pg) (now : ℤ) (u : WeekUpdate) (w w' : Week) : Prop where
  id : w'.id = w.id
  isoWeek : w'.isoWeek = u.isoWeek.getD w.isoWeek
  startDate : DateSet pg u.startDate w.startDate w'.startDate
  endDate : DateSet pg u.endDate w.endDate w'.endDate
  deliveryDate : NullableSet pg u.deliveryDate w.deliveryDate w'.deliveryDate
  orderDate : NullableSet pg u.orderDate w.orderDate w'.orderDate
  status : StatusSet u.status w.status w'.status
  notesMd : w'.notesMd = u.notesMd.getD w.notesMd
  updatedAt : w'.updatedAt = if u.isEmpty then w.updatedAt else now

lemma addDate_of_dateSet {v : Option String} {cur new : ℤ} (column : String)
    (h : DateSet pg v cur new) :
    ∃ o, Store.addDate pg v = .ok o ∧ notNull column o cur = .ok new := by
  cases v with
  | none => exact ⟨none, rfl, congrArg Except.ok h.symm⟩
  | some s =>
    obtain ⟨hs, hcast⟩ := h
    refine ⟨some (some new), ?_, rfl⟩
    rw [Store.addDate, if_neg hs, date_of_cast hcast]
    rfl

lemma nullableSet_iff {v : Option String} {cur new : Option ℤ} :
    NullableSet pg v cur new ↔ ∃ o, Store.addDate pg v = .ok o ∧ o.getD cur = new := by
  cases v with
  | none =>
    constructor
    · exact fun h => ⟨none, rfl, h.symm⟩
    · rintro ⟨o, ho, rfl⟩
      cases ho
      rfl
  | some s =>
    by_cases hs : s = ""
    · simp only [NullableSet, Store.addDate, hs, if_true]
      constructor
      · exact fun h => ⟨some none, rfl, h.symm⟩
      · rintro ⟨o, ho, rfl⟩
        cases ho
        rfl
    · simp only [NullableSet, Store.addDate, hs, if_false]
      constructor
      · rintro ⟨day, hday, rfl⟩
        refine ⟨some (some day), ?_, rfl⟩
        rw [date_of_cast hday]
        rfl
      · rintro ⟨o, ho, rfl⟩
        obtain ⟨day, hday, ho⟩ := exists_of_bind ho
        cases ho
        refine ⟨day, ?_, rfl⟩
        unfold Sql.date at hday
        split at hday <;> simp_all

/-- An update that sets something can be stored as `w'` exactly when that is the partial update. -/
lemma saves_iff {now : ℤ} {u : WeekUpdate} {w w' : Week} (hu : u.isEmpty = false) :
    Saves pg now u w w' ↔ PartialUpdate pg now u w w' := by
  constructor
  · intro h
    have hup := h.updated
    obtain ⟨-, s, hs, hw⟩ := h
    obtain ⟨a, ha, hs⟩ := exists_of_bind hs
    obtain ⟨b, hb, hs⟩ := exists_of_bind hs
    obtain ⟨c, hc, hs⟩ := exists_of_bind hs
    obtain ⟨e, he, hs⟩ := exists_of_bind hs
    cases hs
    obtain ⟨a', -, hw⟩ := exists_of_bind hw
    obtain ⟨b', -, hw⟩ := exists_of_bind hw
    obtain ⟨st, -, hw⟩ := exists_of_bind hw
    cases hw
    exact ⟨hup.id, hup.isoWeek, hup.startDate, hup.endDate, nullableSet_iff.mpr ⟨c, hc, rfl⟩,
      nullableSet_iff.mpr ⟨e, he, rfl⟩, hup.status, hup.notesMd, by rw [hu]; exact hup.updatedAt⟩
  · intro h
    obtain ⟨a, ha, ha'⟩ := addDate_of_dateSet "start_date" h.startDate
    obtain ⟨b, hb, hb'⟩ := addDate_of_dateSet "end_date" h.endDate
    obtain ⟨c, hc, hc'⟩ := nullableSet_iff.mp h.deliveryDate
    obtain ⟨e, he, he'⟩ := nullableSet_iff.mp h.orderDate
    have hst : checkStatus u.status w.status = .ok w'.status := by
      have hs := h.status
      unfold StatusSet at hs
      unfold checkStatus
      split at hs <;> simp_all
    refine ⟨hu, ⟨u.isoWeek, a, b, c, e, u.status, u.notesMd⟩, ?_, ?_⟩
    · rw [Store.sets, ha, hb, hc, he]
      rfl
    · have hat := h.updatedAt
      rw [hu] at hat
      rw [Sets.assign, ha', hb', hst]
      refine congrArg Except.ok ?_
      obtain ⟨k, iso, start, finish, delivery, order, status, notes, updated⟩ := w'
      rw [Week.mk.injEq]
      exact ⟨h.id.symm, h.isoWeek.symm, rfl, rfl, hc', he', rfl, h.notesMd.symm, hat.symm⟩

/-! ### What the callers get -/

/-- The count or the failure, and the database afterwards. -/
def updated (pg : Pg) (now id : ℤ) (u : WeekUpdate) (d : Db) : Except DbError ℕ × Db :=
  perform (updateWeek (Prog.query · fun e => e) pg now id u) d

/-- The statement refers to each argument once and in order, makes the partial update of the row and
touches no other, fails only where no row holds the values, and counts `0` just when there is no
row. -/
structure UpdateOk (pg : Pg) (now id : ℤ) (u : WeekUpdate) (d : Db) : Prop where
  numbers : ∀ q, query id u = some q → placeholders q.sql.toList = List.range' 1 q.args.length
  row : ∀ n d' w, updated pg now id u d = (.ok n, d') → d.weeks.find? id = some w →
    ∃ w', PartialUpdate pg now u w w' ∧ d'.weeks.find? id = some w'
  others : ∀ n d', updated pg now id u d = (.ok n, d') →
    (∀ k, k ≠ id → d'.weeks.find? k = d.weeks.find? k) ∧ d' = { d with weeks := d'.weeks }
  stored : ∀ w w', d.weeks.find? id = some w → PartialUpdate pg now u w w' →
    ∃ n, (updated pg now id u d).1 = .ok n
  failed : ∀ e d', updated pg now id u d = (.error e, d') → d' = d
  count : ∀ n d', updated pg now id u d = (.ok n, d') → (n = 0 ↔ d.weeks.find? id = none)

variable {now id : ℤ} {u : WeekUpdate} {d d' : Db} {w : Week} {n : ℕ}

lemma updated_empty (hu : u.isEmpty = true) : updated pg now id u d = (.ok 0, d) := by
  rw [updated, updateWeek_eq, Store.updateWeek, if_pos hu]
  rfl

lemma updated_eq (hu : u.isEmpty = false) : updated pg now id u d =
    match (updateWeekStmt pg now id u).run d with
      | .error e => (.error e, d)
      | .ok (ws, n) => (.ok n, applyAll d ws) := by
  have hu' : ¬u.isEmpty = true := by simp [hu]
  rw [updated, updateWeek_eq, Store.updateWeek, if_neg hu', perform, Prog.run_query]
  rcases (updateWeekStmt pg now id u).run d with e | ⟨ws, n⟩ <;> rfl

/-- An update that sets something finds no row, or replaces the row by its partial update. -/
lemma updated_ok (hu : u.isEmpty = false) (h : updated pg now id u d = (.ok n, d')) :
    (d.weeks.find? id = none ∧ n = 0 ∧ d' = d) ∨
      ∃ w w', d.weeks.find? id = some w ∧ PartialUpdate pg now u w w' ∧ n = 1 ∧
        d' = setWeek d w' := by
  rw [updated_eq hu] at h
  rcases hr : (updateWeekStmt pg now id u).run d with e | ⟨ws, m⟩
  · rw [hr] at h
    cases h
  · rw [hr] at h
    cases h
    rcases updateWeekStmt_ok hr with ⟨hw, rfl, rfl⟩ | ⟨w, w', s, hw, hs, hw', rfl, rfl⟩
    · exact Or.inl ⟨hw, rfl, rfl⟩
    · exact Or.inr ⟨w, w', hw, (saves_iff hu).mp ⟨hu, s, hs, hw'⟩, rfl, rfl⟩

lemma find_updated (hw : d.weeks.find? id = some w) {w' : Week} (hid : w'.id = w.id) (k : ℤ) :
    (setWeek d w').weeks.find? k = if k = id then some w' else d.weeks.find? k := by
  have hkey : Keyed.key w' = id := hid.trans (Table.find?_eq_some.mp hw).2
  exact (Table.find?_put d.weeks w' k).trans (by rw [hkey])

lemma updateOk_of_set (hu : u.isEmpty = false) : UpdateOk pg now id u d where
  numbers _ h := placeholders_sql h
  row n d' w h hw := by
    rcases updated_ok hu h with ⟨hnone, -⟩ | ⟨v, w', hv, hp, -, rfl⟩
    · rw [hw] at hnone
      cases hnone
    · obtain rfl : v = w := Option.some.inj (hv.symm.trans hw)
      exact ⟨w', hp, by rw [find_updated hw hp.id, if_pos rfl]⟩
  others n d' h := by
    rcases updated_ok hu h with ⟨-, -, rfl⟩ | ⟨v, w', hv, hp, -, rfl⟩
    · exact ⟨fun _ _ => rfl, rfl⟩
    · exact ⟨fun k hk => by rw [find_updated hv hp.id, if_neg hk], rfl⟩
  stored w w' hw hp := by
    obtain ⟨-, s, hs, hw'⟩ := (saves_iff hu).mpr hp
    refine ⟨1, ?_⟩
    rw [updated_eq hu, updateWeekStmt_of_assign hs hw hw']
  failed e d' h := by
    rw [updated_eq hu] at h
    rcases hr : (updateWeekStmt pg now id u).run d with e | ⟨ws, m⟩
    · rw [hr] at h
      cases h
      rfl
    · rw [hr] at h
      cases h
  count n d' h := by
    rcases updated_ok hu h with ⟨hw, hn, -⟩ | ⟨v, w', hv, -, hn, -⟩
    · simp [hw, hn]
    · simp [hv, hn]

lemma updateOk_of_missing (hu : u.isEmpty = true) (hw : d.weeks.find? id = none) :
    UpdateOk pg now id u d where
  numbers _ h := placeholders_sql h
  row n d' w _ h := by
    rw [hw] at h
    cases h
  others n d' h := by
    rw [updated_empty hu] at h
    cases h
    exact ⟨fun _ _ => rfl, rfl⟩
  stored w w' h _ := by
    rw [hw] at h
    cases h
  failed e d' h := by
    rw [updated_empty hu] at h
    cases h
  count n d' h := by
    rw [updated_empty hu] at h
    cases h
    simp [hw]

/-- **The update** does all that is said of it exactly when it sets something, or there is no row:
one that sets nothing counts `0` for a row that is there. -/
theorem updateOk_iff (pg : Pg) (now id : ℤ) (u : WeekUpdate) (d : Db) :
    UpdateOk pg now id u d ↔ u.isEmpty = false ∨ d.weeks.find? id = none := by
  constructor
  · intro h
    rcases hu : u.isEmpty with _ | _
    · exact Or.inl rfl
    · exact Or.inr ((h.count 0 d (updated_empty hu)).mp rfl)
  · rintro (hu | hw)
    · exact updateOk_of_set hu
    · rcases hu : u.isEmpty with _ | _
      · exact updateOk_of_set hu
      · exact updateOk_of_missing hu hw

/-- Nothing to set on a plan that is there. -/
theorem not_updateOk : ¬∀ (u : WeekUpdate) (d : Db), UpdateOk Pg.plain 5 1 u d := by
  intro h
  have hall := h ⟨none, none, none, none, none, none, none⟩ (threeDays .draft)
  have hw := (hall.count 0 _ (updated_empty rfl)).mp rfl
  exact absurd hw (by decide)

end Veckomenyn.SetList
