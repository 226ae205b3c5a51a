import Veckomenyn.MasterKey
import Veckomenyn.Traces
import Veckomenyn.Upserts

/-!
Two updates of one kind at the same time.

An update reads the config in one statement and writes all of it in another. An update that writes
between the two is written over.
-/

namespace Veckomenyn.LostPatch

open Crypto Remote Providers Upserts

/-! ### The sections of an update -/

lemma still_encryptField (c : Aead) (config : Config) (f : Field) :
    (Store.encryptField c config f).Still := by
  unfold Store.encryptField
  split_ifs
  · trivial
  · split
    · split_ifs
      · trivial
      · exact fun nonce => trivial
    · trivial

lemma still_encryptSecrets (s : Store) (kind : Kind) (config : Config) :
    (s.encryptSecrets kind config).Still := by
  unfold Store.encryptSecrets
  split
  · trivial
  · next c _ =>
    induction fieldsOf kind generalizing config with
    | nil => trivial
    | cons f fields ih =>
      rw [List.foldlM_cons]
      exact (still_encryptField c config f).bind ih

/-- An update that succeeds reads, writes and reads. -/
def Updates (s : Store) (now : String) (kind : Kind) (patch : UpsertPatch)
    (l : List (Table × Table)) (r : Except Err Provider) : Prop :=
  ∀ p, r = .ok p → ∃ found pre post last row, l = [(found, found), (pre, post), (last, last)] ∧
    Store.current (s.found found kind) = .ok row ∧ Written s now kind patch row pre post

lemma paths_upsert (s : Store) (now : String) (kind : Kind) (patch : UpsertPatch) :
    (s.upsert now kind patch).Paths (Updates s now kind patch) := by
  unfold Store.upsert
  rw [attempt_get]
  intro found
  show (Proc.ret (Store.current (s.found found kind)) >>= _).Paths _
  cases hrow : Store.current (s.found found kind) with
  | error e => exact fun p hp => absurd hp (by simp)
  | ok row =>
    show (s.encryptSecrets kind (s.merge row.1 patch.config) >>= _).Paths _
    have hstored := (still_encryptSecrets s kind (s.merge row.1 patch.config)).paths
      (T := fun r => ∀ stored, r = .ok stored →
        StoredAs s.crypt kind (s.merge row.1 patch.config) stored)
      (Proc.wp_mono (fun stored w h => by rintro _ ⟨⟩; exact h.2) (fun e w h _ he => by cases he)
        (wp_encryptSecrets (F := fun _ _ => True) (w := ⟨found, []⟩) s kind _))
    refine hstored.bind ?_ ?_
    · rintro stored l ⟨rfl, hs⟩ pre last p -
      exact ⟨found, pre, _, last, row, rfl, hrow, stored, hs stored rfl, rfl⟩
    · rintro e l - p hp
      exact absurd hp (by simp)

/-! ### What a patch asks for -/

/-- A config has what a patch puts into it. -/
def Holds (s : Store) (kind : Kind) (patch config : Config) : Prop :=
  ∀ key j, patch key = some j → j ≠ .str s.sentinel →
    config key = s.decryptSecrets kind (s.merge (fun _ => none) patch) key

variable {s : Store} {kind : Kind} {patch other config config' : Config}

/-- What a patch puts somewhere does not depend on what was there. -/
lemma merge_of_patch {key : String} {j : Json} (h : patch key = some j)
    (hj : j ≠ .str s.sentinel) : s.merge config patch key = s.merge config' patch key := by
  unfold Store.merge
  rw [h]
  cases j with
  | str v =>
    have hv : v ≠ s.sentinel := fun he => hj (he ▸ rfl)
    simp only [hv, if_false]
  | _ => rfl

lemma holds_merge : Holds s kind patch (s.decryptSecrets kind (s.merge config patch)) := by
  intro key j hj hne
  rw [decryptSecrets_apply, decryptSecrets_apply, merge_of_patch hj hne]

/-- Only the patch's keys count. -/
lemma holds_congr (h : ∀ key j, patch key = some j → j ≠ .str s.sentinel →
    config key = config' key) : Holds s kind patch (s.decryptSecrets kind config) ↔
      Holds s kind patch (s.decryptSecrets kind config') := by
  refine forall₂_congr fun key j => forall₂_congr fun hj hne => ?_
  rw [decryptSecrets_apply s kind config, decryptSecrets_apply s kind config', h key j hj hne]

/-- A patch of other keys leaves them. -/
lemma holds_other (hdis : ∀ key, patch key = none ∨ other key = none) :
    Holds s kind patch (s.decryptSecrets kind (s.merge config other)) ↔
      Holds s kind patch (s.decryptSecrets kind config) := by
  refine holds_congr fun key j hj _ => ?_
  have ho : other key = none := (hdis key).resolve_left (by simp [hj])
  simp only [Store.merge, ho]

/-! ### Two updates -/

/-- Two updates of one kind, their statements in the order of the schedule. -/
def race (s : Store) (kind : Kind) (now : Bool → String) (patch : Bool → UpsertPatch) (t : Table)
    (sched : Threads.Schedule Bool ℕ Buf) : Threads Bool Table ℕ Buf Err fun _ => Provider :=
  (Threads.start t fun i => s.upsert (now i) kind (patch i)).run sched

/-- When the patch of the first to write is kept. -/
def FirstKept (s : Store) (kind : Kind) (patch : Bool → UpsertPatch) (t : Table)
    (as : List (Act Bool Table ℕ Buf)) (i : Bool) : Prop :=
  Threads.Ahead as i ∧ Holds s kind (patch i).config (s.decryptSecrets kind
      (s.decryptSecrets kind (s.merge (fun _ => none) (patch i).config))) ∨
    Threads.Overtaken as i ∧
      Holds s kind (patch i).config (s.decryptSecrets kind (configOf s t kind))

lemma ahead_inj {as : List (Act Bool Table ℕ Buf)} {i j : Bool} (hi : Threads.Ahead as i)
    (hj : Threads.Ahead as j) : i = j := (List.cons.inj (hi.symm.trans hj)).1

lemma overtaken_inj {as : List (Act Bool Table ℕ Buf)} {i j : Bool} (hi : Threads.Overtaken as i)
    (hj : Threads.Overtaken as j) : i = j := Option.some.inj (hi.2.symm.trans hj.2)

lemma not_ahead_overtaken {as : List (Act Bool Table ℕ Buf)} {i j : Bool}
    (hi : Threads.Ahead as i) (hj : Threads.Overtaken as j) : False := by
  obtain ⟨⟨c, d, hcd, h⟩, -⟩ := hj
  obtain ⟨rfl, htail⟩ := List.cons.inj (hi.symm.trans h)
  exact hcd (List.cons.inj htail).1

variable {now : Bool → String} {patches : Bool → UpsertPatch} {t t' : Table}
  {as : List (Act Bool Table ℕ Buf)} {x : Threads.Sections Bool Table} {i j : Bool}

/-- What is kept of the two patches, when `i` writes first. -/
lemma kept_iff (hdis : ∀ key, (patches i).config key = none ∨ (patches j).config key = none)
    (hw : ∀ k, ∃ row, Store.current (s.found (x.found k) kind) = .ok row ∧
      Written s (now k) kind (patches k) row (x.pre k) (x.post k))
    (h : Threads.WritesFirst as x t t' i j) :
    (Holds s kind (patches i).config (configOf s t' kind) ∧
      Holds s kind (patches j).config (configOf s t' kind)) ↔
        ∃ k, FirstKept s kind patches t as k := by
  obtain ⟨rowi, hrowi, hwi⟩ := hw i
  obtain ⟨rowj, hrowj, hwj⟩ := hw j
  have hi : configOf s (x.post i) kind =
      s.decryptSecrets kind (s.merge rowi.1 (patches i).config) := hwi.configOf
  have hj : configOf s t' kind =
      s.decryptSecrets kind (s.merge (configOf s (x.found j) kind) (patches j).config) := by
    rw [h.final, hwj.configOf, current_config hrowj]
  have hkeptj : Holds s kind (patches j).config (configOf s t' kind) := hj ▸ holds_merge
  have hkepti : Holds s kind (patches i).config (configOf s t' kind) ↔
      Holds s kind (patches i).config
        (s.decryptSecrets kind (configOf s (x.found j) kind)) := by
    rw [hj]
    exact holds_other hdis
  rw [and_iff_left hkeptj, hkepti]
  rcases h.order with ⟨hahead, hfound⟩ | ⟨hover, hfound⟩
  · have hre : Holds s kind (patches i).config
        (s.decryptSecrets kind (configOf s (x.found j) kind)) ↔
          Holds s kind (patches i).config (s.decryptSecrets kind
            (s.decryptSecrets kind (s.merge (fun _ => none) (patches i).config))) := by
      refine holds_congr fun key v hv hne => ?_
      rw [hfound, hi]
      exact holds_merge key v hv hne
    rw [hre]
    constructor
    · exact fun hk => ⟨i, Or.inl ⟨hahead, hk⟩⟩
    · rintro ⟨k, ⟨hk, hh⟩ | ⟨hk, hh⟩⟩
      · exact ahead_inj hk hahead ▸ hh
      · exact (not_ahead_overtaken hahead hk).elim
  · rw [hfound]
    constructor
    · exact fun hk => ⟨i, Or.inr ⟨hover, hk⟩⟩
    · rintro ⟨k, ⟨hk, hh⟩ | ⟨hk, hh⟩⟩
      · exact (not_ahead_overtaken hk hover).elim
      · exact overtaken_inj hk hover ▸ hh

/-- **Lost updates**: of two updates of different keys that both succeed, both are kept exactly when
one has written before the other reads and what it put there reads the same when read twice, or
what the first to write asked for was there already. -/
theorem both_kept_iff (hdis : ∀ key, (patches false).config key = none ∨
      (patches true).config key = none) (sched : Threads.Schedule Bool ℕ Buf)
    (hdone : ∀ i, ∃ p, (race s kind now patches t sched).result i = some (.ok p)) :
    (∀ i, Holds s kind (patches i).config
      (configOf s (race s kind now patches t sched).mem kind)) ↔
        ∃ i, FirstKept s kind patches t (race s kind now patches t sched).acts i := by
  let u := race s kind now patches t sched
  have hpaths : Threads.OnPaths (fun i => Updates s (now i) kind (patches i)) u :=
    Threads.paths_run (fun i => paths_upsert s (now i) kind (patches i)) sched
  have hdone' (i : Bool) : ∃ found pre post last row,
      Threads.mine i u.acts = [(found, found), (pre, post), (last, last)] ∧
        Store.current (s.found found kind) = .ok row ∧
          Written s (now i) kind (patches i) row pre post := by
    obtain ⟨p, hp⟩ := hdone i
    exact hpaths.result hp p rfl
  choose found pre post last row hmine hrow hwritten using hdone'
  have hleads : Threads.Leads t u.acts u.mem := Threads.leads_run t _ sched
  have hdis' : ∀ key, (patches true).config key = none ∨ (patches false).config key = none :=
    fun key => (hdis key).symm
  rw [Bool.forall_bool]
  rcases Threads.writesFirst (x := ⟨found, pre, post, last⟩) (i := false) (j := true)
    (by decide) (by decide) hleads hmine with h | h
  · exact kept_iff hdis (fun k => ⟨row k, hrow k, hwritten k⟩) h
  · rw [and_comm]
    exact kept_iff hdis' (fun k => ⟨row k, hrow k, hwritten k⟩) h

/-! ### The name and the password of a shop -/

def userName : Config := fun key => if key = "username" then some (.str "198001011234") else none

def password : Config := fun key => if key = "password" then some (.str "hunter2") else none

def settings (i : Bool) : UpsertPatch := ⟨none, if i then password else userName⟩

lemma settings_disjoint (key : String) :
    (settings false).config key = none ∨ (settings true).config key = none := by
  by_cases h : key = "username"
  · subst h
    exact Or.inr (by decide)
  · exact Or.inl (if_neg h)

def process : Store := ⟨some (tagged 0), MasterKey.zeros 16⟩

/-- The moves of the two threads; an update of the password draws a nonce. -/
def order (who : List Bool) : Threads.Schedule Bool ℕ Buf := who.map fun i => (i, MasterKey.zeros)

/-- The name is written before the password is read. -/
def inTurn : Threads.Schedule Bool ℕ Buf := order [false, false, false, true, true, true, true]

/-- Both are read before either is written. -/
def atOnce : Threads.Schedule Bool ℕ Buf := order [false, true, true, false, true, false, true]

abbrev settingsRace (sched : Threads.Schedule Bool ℕ Buf) :=
  race process kindWillys (fun _ => "") settings Table.empty sched

lemma inTurn_done (i : Bool) : ∃ p, (settingsRace inTurn).result i = some (.ok p) := by
  cases i
  · exact ⟨_, rfl⟩
  · exact ⟨_, rfl⟩

lemma atOnce_done (i : Bool) : ∃ p, (settingsRace atOnce).result i = some (.ok p) := by
  cases i
  · exact ⟨_, rfl⟩
  · exact ⟨_, rfl⟩

theorem both_kept_inTurn :
    Holds process kindWillys (settings false).config
        (configOf process (settingsRace inTurn).mem kindWillys) ∧
      Holds process kindWillys (settings true).config
        (configOf process (settingsRace inTurn).mem kindWillys) := by
  have hkept := (both_kept_iff settings_disjoint inTurn inTurn_done).mpr
    ⟨false, Or.inl ⟨rfl, fun key j hj _ => ?_⟩⟩
  · exact ⟨hkept false, hkept true⟩
  · by_cases hk : key = "username"
    · subst hk
      rfl
    · exact absurd hj (by simp [settings, userName, hk])

/-- The name is lost. -/
theorem not_both_kept : (∀ i, ∃ p, (settingsRace atOnce).result i = some (.ok p)) ∧
    ¬ ∀ i, Holds process kindWillys (settings i).config
      (configOf process (settingsRace atOnce).mem kindWillys) := by
  refine ⟨atOnce_done, fun h => ?_⟩
  have hne : "198001011234" ≠ process.sentinel := by decide
  have hname := h false "username" (.str "198001011234") rfl fun he => hne (Json.str.inj he)
  have hlost : configOf process (settingsRace atOnce).mem kindWillys "username" = none := rfl
  rw [hlost, decryptSecrets_apply] at hname
  exact absurd hname (by simp [Store.merge, settings, userName, hne])

end Veckomenyn.LostPatch
