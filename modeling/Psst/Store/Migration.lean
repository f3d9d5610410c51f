import Psst.Core.Secret
import Psst.Lib.Table
import Psst.Lib.Transaction

/-!
# Migrations

`lib.rs` of the store: opening a database file checks whose it is and brings its schema up to the
plan embedded in the build. Which migrations a file has had is recorded in a ledger, one row a
migration, with the checksum of the script that was run. A script that runs is SQLite's affair and
stays a parameter, as does the clock of `unixepoch()`.
-/

namespace Psst

open Table

/-! ## The plan and the ledger -/

structure Migration where
  version : Int
  sql : String

/-- `StoreError`, as far as opening a store goes. -/
inductive StoreError where
  | database
  | unexpectedApplicationId (actual : Int)
  | futureSchema (database supported : Int)
  | migrationChecksumMismatch (version : Int)
  | invalidMigrationLedger (expected actual : Int)
  | invalidMigrationPlan (message : String)
  deriving DecidableEq

/-- A call that does not succeed returns an error or panics on an index. -/
inductive StoreFailure where
  | error (e : StoreError)
  | indexOutOfBounds
  deriving DecidableEq

/-- A row of `schema_migrations`. -/
structure MigrationRow where
  version : Int
  appliedAt : Int
  checksum : String

/-- `ORDER BY version ASC` -/
def MigrationRow.Le (a b : MigrationRow) : Prop := a.version ≤ b.version

instance : DecidableRel MigrationRow.Le := fun _ _ => inferInstanceAs (Decidable (_ ≤ _))

instance : Std.Total MigrationRow.Le := ⟨fun a b => Int.le_total a.version b.version⟩

instance : IsTrans MigrationRow MigrationRow.Le := ⟨fun _ _ _ => Int.le_trans⟩

/-- The table `schema_migrations`, whose primary key is the version. -/
structure MigrationLedger where
  rows : List MigrationRow
  primaryKey : UniqueKey MigrationRow.version rows

def MigrationLedger.empty : MigrationLedger := ⟨[], List.nodup_nil⟩

/-- An insert, which the primary key may refuse. -/
def MigrationLedger.insert (l : MigrationLedger) (row : MigrationRow) : Option MigrationLedger :=
  if h : UniqueKey MigrationRow.version (l.rows ++ [row]) then some ⟨l.rows ++ [row], h⟩ else none

/-- A database file: its `application_id`, the ledger when the table is there, and everything
else. -/
structure Database (σ : Type) where
  applicationId : Int
  ledger : Option MigrationLedger
  schema : σ

/-- `APPLICATION_ID` -/
def applicationId : Int := 0x50535354

namespace Database

variable {σ : Type}

def rows (db : Database σ) : List MigrationRow := (db.ledger.map MigrationLedger.rows).getD []

/-- `SELECT version, checksum FROM schema_migrations ORDER BY version ASC` -/
def rowsByVersion (db : Database σ) : List MigrationRow :=
  db.rows.insertionSort MigrationRow.Le

/-- `CREATE TABLE IF NOT EXISTS schema_migrations` -/
def withLedger (db : Database σ) : Database σ :=
  { db with ledger := some (db.ledger.getD .empty) }

/-- `INSERT INTO schema_migrations` -/
def insertMigration (row : MigrationRow) (db : Database σ) : Option (Database σ) := do
  let ledger ← db.ledger
  let ledger ← ledger.insert row
  pure { db with ledger := some ledger }

/-- The file is new or one of Psst's. -/
def Ours (db : Database σ) : Prop := db.applicationId = 0 ∨ db.applicationId = Psst.applicationId

instance (db : Database σ) : Decidable db.Ours := inferInstanceAs (Decidable (_ ∨ _))

end Database

/-! ## Opening a store -/

/-- The loop of `validate_migration_plan`, at the index `index`. -/
def validateMigrationPlanFrom : Nat → List Migration → Except StoreFailure Unit
  | _, [] => .ok ()
  | index, migration :: migrations =>
    if migration.version ≠ index + 1 then
      .error (.error (.invalidMigrationPlan
        "embedded migrations must be contiguous and start at version 1"))
    else validateMigrationPlanFrom (index + 1) migrations

def validateMigrationPlan (migrations : List Migration) : Except StoreFailure Unit :=
  validateMigrationPlanFrom 0 migrations

section Open

variable [Sha256] {σ : Type}

/-- `format!("{:x}", Sha256::digest(..))` -/
def checksum (sql : String) : String := (Sha256.digest (asBytes sql)).toHex

/-- The loop of `verify_migration_ledger`: the rows left to read, and the last version read. -/
def verifyMigrationLedger (migrations : List Migration) (supported : Int) :
    List MigrationRow → Int → Except StoreFailure Int
  | [], applied => .ok applied
  | row :: rows, applied =>
    let expected := applied + 1
    if supported < row.version then .error (.error (.futureSchema row.version supported))
    else if row.version ≠ expected then
      .error (.error (.invalidMigrationLedger expected row.version))
    -- `usize::try_from(version - 1)`
    else if row.version - 1 < 0 then .error (.error (.invalidMigrationLedger expected row.version))
    else
      match migrations[(row.version - 1).toNat]? with
      | none => .error .indexOutOfBounds
      | some migration =>
        if row.checksum ≠ checksum migration.sql then
          .error (.error (.migrationChecksumMismatch row.version))
        else verifyMigrationLedger migrations supported rows row.version

/-- The row inserted for a migration; `clock` reads when each version is recorded. -/
def Migration.row (clock : Int → Int) (migration : Migration) : MigrationRow :=
  ⟨migration.version, clock migration.version, checksum migration.sql⟩

abbrev MigrationTx (σ α : Type) := Tx (Database σ) StoreFailure α

def verifyApplicationId : MigrationTx σ Unit := do
  let actual ← Tx.query Database.applicationId
  Tx.require (actual = 0 ∨ actual = applicationId) (.error (.unexpectedApplicationId actual))

variable (executeBatch : String → Database σ → Option (Database σ))

/-- One migration: its script, then its row in the ledger. -/
def applyMigration (clock : Int → Int) (migration : Migration) : MigrationTx σ Unit := do
  Tx.update (executeBatch migration.sql) (.error .database)
  Tx.update (Database.insertMigration (migration.row clock)) (.error .database)

def applyMigrations (clock : Int → Int) : List Migration → MigrationTx σ Unit
  | [] => pure ()
  | migration :: migrations => do
    applyMigration executeBatch clock migration
    applyMigrations clock migrations

/-- The body of the exclusive transaction. -/
def migrate (clock : Int → Int) (migrations : List Migration) : MigrationTx σ Unit := do
  verifyApplicationId
  Tx.update (fun db => some db.withLedger) (.error .database)
  let supported := (migrations.getLast?.map Migration.version).getD 0
  let rows ← Tx.query Database.rowsByVersion
  let database ← Tx.ofExcept (verifyMigrationLedger migrations supported rows 0)
  applyMigrations executeBatch clock
    (migrations.filter fun migration => decide (database < migration.version))
  Tx.update (fun db => some { db with applicationId := applicationId }) (.error .database)

/-- `Store::open_with_migrations`; the connection's own settings are no part of the file. -/
def openWithMigrations (clock : Int → Int) (migrations : List Migration) (db : Database σ) :
    Except StoreFailure Unit × Database σ :=
  match validateMigrationPlan migrations, (Tx.commit verifyApplicationId db).1 with
  | .error e, _ => (.error e, db)
  | .ok (), .error e => (.error e, db)
  | .ok (), .ok () => Tx.commit (migrate executeBatch clock migrations) db

end Open

/-! ## Rows of the ledger -/

section Rows

variable {σ : Type}

theorem Database.mem_rowsByVersion {db : Database σ} {row : MigrationRow} :
    row ∈ db.rowsByVersion ↔ row ∈ db.rows :=
  List.mem_insertionSort _

theorem MigrationLedger.nodup (ledger : MigrationLedger) :
    (ledger.rows.map MigrationRow.version).Nodup := by
  have hkey := ledger.primaryKey
  unfold UniqueKey UniqueOn at hkey
  rw [List.filter_true] at hkey
  exact hkey

theorem MigrationLedger.insert_of_above (ledger : MigrationLedger) (row : MigrationRow)
    (h : ∀ r ∈ ledger.rows, r.version < row.version) :
    ∃ ledger', ledger.insert row = some ledger' ∧ ledger'.rows = ledger.rows ++ [row] := by
  have hunique : UniqueKey MigrationRow.version (ledger.rows ++ [row]) :=
    ledger.primaryKey.append_iff.mpr fun r hr => Int.ne_of_lt (h r hr)
  exact ⟨⟨ledger.rows ++ [row], hunique⟩, dif_pos hunique, rfl⟩

theorem Database.rows_withLedger (db : Database σ) : db.withLedger.rows = db.rows := by
  cases hledger : db.ledger with
  | none => simp [rows, withLedger, hledger, MigrationLedger.empty]
  | some ledger => simp [rows, withLedger, hledger]

/-- Rows appended in order, above all the others, are read after them. -/
theorem insertionSort_append {rows new : List MigrationRow} {k : Int}
    (hnodup : ((rows ++ new).map MigrationRow.version).Nodup)
    (hrows : ∀ row ∈ rows, row.version ≤ k) (hnew : new.Pairwise MigrationRow.Le)
    (habove : ∀ row ∈ new, k < row.version) :
    (rows ++ new).insertionSort MigrationRow.Le = rows.insertionSort MigrationRow.Le ++ new := by
  have hsorted : (rows.insertionSort MigrationRow.Le ++ new).Pairwise MigrationRow.Le := by
    refine List.pairwise_append.mpr ⟨List.pairwise_insertionSort _ rows, hnew, ?_⟩
    intro a ha b hb
    have hle := hrows a ((List.mem_insertionSort _).mp ha)
    have hlt := habove b hb
    show a.version ≤ b.version
    omega
  have hperm : ((rows ++ new).insertionSort MigrationRow.Le).Perm
      (rows.insertionSort MigrationRow.Le ++ new) :=
    (List.perm_insertionSort _ _).trans ((List.perm_insertionSort _ rows).symm.append_right new)
  refine hperm.eq_of_pairwise ?_ (List.pairwise_insertionSort _ _) hsorted
  intro a b ha hb hab hba
  -- two rows in both orders have one version, which is unique
  have hmem : ∀ {row}, row ∈ (rows ++ new).insertionSort MigrationRow.Le → row ∈ rows ++ new :=
    fun h => (List.mem_insertionSort _).mp h
  exact List.inj_on_of_nodup_map hnodup (hmem ha) (hmem (hperm.mem_iff.mpr hb))
    (Int.le_antisymm hab hba)

end Rows

/-! ## Contiguous plans -/

/-- The versions count up from `first + 1`. -/
def ContiguousFrom : Nat → List Migration → Prop
  | _, [] => True
  | first, migration :: migrations =>
    migration.version = first + 1 ∧ ContiguousFrom (first + 1) migrations

theorem validateMigrationPlanFrom_eq_ok {first : Nat} {migrations : List Migration} :
    validateMigrationPlanFrom first migrations = .ok () ↔ ContiguousFrom first migrations := by
  induction migrations generalizing first with
  | nil => exact iff_of_true rfl trivial
  | cons migration migrations ih =>
      rw [validateMigrationPlanFrom]
      by_cases hversion : migration.version = first + 1
      · rw [if_neg (not_not.mpr hversion), ih]
        exact ⟨fun h => ⟨hversion, h⟩, fun h => h.2⟩
      · rw [if_pos hversion]
        exact iff_of_false nofun fun h => hversion h.1

namespace ContiguousFrom

variable {first k : Nat} {migrations : List Migration}

theorem version (h : ContiguousFrom first migrations) {migration : Migration}
    (hk : migrations[k]? = some migration) : migration.version = first + k + 1 := by
  induction migrations generalizing first k with
  | nil => cases hk
  | cons m ms ih =>
      cases k with
      | zero =>
          cases hk
          have := h.1
          omega
      | succ k =>
          have := ih h.2 hk
          omega

theorem drop (h : ContiguousFrom first migrations) :
    ContiguousFrom (first + k) (migrations.drop k) := by
  induction migrations generalizing first k with
  | nil =>
      rw [List.drop_nil]
      trivial
  | cons m ms ih =>
      cases k with
      | zero => exact h
      | succ k =>
          rw [List.drop_succ_cons, show first + (k + 1) = first + 1 + k by omega]
          exact ih h.2

theorem take (h : ContiguousFrom first migrations) : ContiguousFrom first (migrations.take k) := by
  induction migrations generalizing first k with
  | nil =>
      rw [List.take_nil]
      trivial
  | cons m ms ih =>
      cases k with
      | zero => trivial
      | succ k => exact ⟨h.1, ih h.2⟩

/-- The last version is the length of the plan. -/
theorem supported (h : ContiguousFrom 0 migrations) :
    (migrations.getLast?.map Migration.version).getD 0 = migrations.length := by
  rcases migrations.eq_nil_or_concat with rfl | ⟨ms, m, rfl⟩
  · rfl
  · rw [List.concat_eq_append] at h ⊢
    have hlast : (ms ++ [m])[ms.length]? = some m := by simp
    have := h.version hlast
    rw [List.getLast?_concat]
    simp only [Option.map_some, Option.getD_some, List.length_append, List.length_singleton]
    omega

/-- **The filter on version numbers drops a prefix.** -/
theorem filter_eq_drop (h : ContiguousFrom first migrations) (k : Nat) :
    (migrations.filter fun migration => decide ((first + k : Int) < migration.version))
      = migrations.drop k := by
  induction migrations generalizing first k with
  | nil => simp
  | cons m ms ih =>
      have hm := h.1
      cases k with
      | zero =>
          -- every version is above `first`
          rw [List.drop_zero, List.filter_eq_self]
          intro migration hmem
          obtain ⟨j, hj⟩ := List.mem_iff_getElem?.mp hmem
          have := h.version hj
          simp only [decide_eq_true_eq]
          omega
      | succ k =>
          rw [List.filter_cons_of_neg (by simp only [decide_eq_true_eq]; omega),
            List.drop_succ_cons, ← ih h.2 k]
          congr 1
          funext migration
          have hcast : (first : Int) + (k + 1 : Nat) = ((first + 1 : Nat) : Int) + k := by omega
          rw [hcast]

end ContiguousFrom

/-! ## What the ledger records -/

section Ledger

variable [Sha256] {σ : Type}

def Migration.entry (migration : Migration) : Int × String :=
  (migration.version, checksum migration.sql)

def MigrationRow.entry (row : MigrationRow) : Int × String := (row.version, row.checksum)

/-- The ledger is exactly the rows of these migrations, with their checksums. -/
def Database.Records (db : Database σ) (migrations : List Migration) : Prop :=
  db.rowsByVersion.map MigrationRow.entry = migrations.map Migration.entry

variable {migrations : List Migration}

/-- One row of the loop, where the plan has a migration for it. -/
theorem verifyMigrationLedger_cons (hplan : ContiguousFrom 0 migrations) {k : Nat}
    {migration : Migration} (hk : migrations[k]? = some migration) {row : MigrationRow}
    (rows : List MigrationRow) (hrow : row.entry = migration.entry) :
    verifyMigrationLedger migrations migrations.length (row :: rows) k
      = verifyMigrationLedger migrations migrations.length rows ((k + 1 : Nat) : Int) := by
  have hlt : k < migrations.length := (List.getElem?_eq_some_iff.mp hk).1
  have hversion : row.version = k + 1 := by
    have hfirst : row.version = migration.version := congrArg Prod.fst hrow
    have := hplan.version hk
    omega
  have hchecksum : row.checksum = checksum migration.sql := congrArg Prod.snd hrow
  have hindex : (row.version - 1).toNat = k := by omega
  rw [verifyMigrationLedger]
  simp only [hindex, hk, hchecksum, ne_eq, not_true, if_false]
  rw [if_neg (by omega), if_neg (by omega), if_neg (by omega), hversion]
  rfl

/-- Any other row is refused, and without looking past the end of the plan. -/
theorem verifyMigrationLedger_cons_error (hplan : ContiguousFrom 0 migrations) {k : Nat}
    {row : MigrationRow} (rows : List MigrationRow)
    (hrow : ∀ migration, migrations[k]? = some migration → row.entry ≠ migration.entry) :
    ∃ e, verifyMigrationLedger migrations migrations.length (row :: rows) k = .error (.error e) := by
  rw [verifyMigrationLedger]
  by_cases hfuture : (migrations.length : Int) < row.version
  · exact ⟨_, if_pos hfuture⟩
  · rw [if_neg hfuture]
    by_cases hversion : row.version = k + 1
    · -- the version is in range, so it is the checksum that differs
      have hlt : k < migrations.length := by omega
      have hk : migrations[k]? = some migrations[k] := List.getElem?_eq_getElem hlt
      have hindex : (row.version - 1).toNat = k := by omega
      have hchecksum : row.checksum ≠ checksum migrations[k].sql := by
        intro hsame
        have := hplan.version hk
        refine hrow _ hk (Prod.ext ?_ hsame)
        show row.version = migrations[k].version
        omega
      rw [if_neg (not_not.mpr hversion), if_neg (by omega), hindex, hk]
      exact ⟨_, if_pos hchecksum⟩
    · exact ⟨_, if_pos hversion⟩

/-- **Which ledgers are accepted**: the rows from version `k + 1` on are those of the plan. -/
theorem verifyMigrationLedger_eq_ok (hplan : ContiguousFrom 0 migrations) {k : Nat}
    (hk : k ≤ migrations.length) {rows : List MigrationRow} {applied : Int} :
    verifyMigrationLedger migrations migrations.length rows k = .ok applied
      ↔ k + rows.length ≤ migrations.length ∧ applied = ((k + rows.length : Nat) : Int)
          ∧ rows.map MigrationRow.entry
              = ((migrations.drop k).take rows.length).map Migration.entry := by
  induction rows generalizing k with
  | nil =>
      rw [verifyMigrationLedger]
      constructor
      · intro h
        cases h
        exact ⟨hk, rfl, rfl⟩
      · rintro ⟨-, rfl, -⟩
        rfl
  | cons row rows ih =>
      by_cases hrow : ∃ migration, migrations[k]? = some migration ∧ row.entry = migration.entry
      · obtain ⟨migration, hmigration, hentry⟩ := hrow
        obtain ⟨hlt, hget⟩ := List.getElem?_eq_some_iff.mp hmigration
        rw [verifyMigrationLedger_cons hplan hmigration rows hentry, ih (by omega),
          List.drop_eq_getElem_cons hlt, hget]
        simp only [List.length_cons, List.take_succ_cons, List.map_cons, hentry,
          List.cons.injEq, true_and]
        rw [show k + 1 + rows.length = k + (rows.length + 1) by omega]
      · obtain ⟨e, he⟩ := verifyMigrationLedger_cons_error hplan rows
          fun migration hmigration hentry => hrow ⟨migration, hmigration, hentry⟩
        rw [he]
        refine iff_of_false nofun ?_
        rintro ⟨hlength, -, hentries⟩
        rw [List.length_cons] at hlength
        have hlt : k < migrations.length := by omega
        rw [List.drop_eq_getElem_cons hlt, List.length_cons, List.take_succ_cons, List.map_cons,
          List.map_cons] at hentries
        exact hrow ⟨migrations[k], List.getElem?_eq_getElem hlt, (List.cons.inj hentries).1⟩

/-- **The plan is never indexed out of bounds.** -/
theorem verifyMigrationLedger_bounds (hplan : ContiguousFrom 0 migrations) {k : Nat}
    (rows : List MigrationRow) :
    verifyMigrationLedger migrations migrations.length rows k ≠ .error .indexOutOfBounds := by
  induction rows generalizing k with
  | nil => exact nofun
  | cons row rows ih =>
      by_cases hrow : ∃ migration, migrations[k]? = some migration ∧ row.entry = migration.entry
      · obtain ⟨migration, hmigration, hentry⟩ := hrow
        rw [verifyMigrationLedger_cons hplan hmigration rows hentry]
        exact ih
      · obtain ⟨e, he⟩ := verifyMigrationLedger_cons_error hplan rows
          fun migration hmigration hentry => hrow ⟨migration, hmigration, hentry⟩
        rw [he]
        exact nofun

/-! ## What a migration writes -/

/-- A recorded version is that of a migration of the plan. -/
theorem Database.Records.version_le {db : Database σ} {k : Nat}
    (h : db.Records (migrations.take k)) (hplan : ContiguousFrom 0 migrations) {row : MigrationRow}
    (hrow : row ∈ db.rows) : row.version ≤ k := by
  have hentry : row.entry ∈ db.rowsByVersion.map MigrationRow.entry :=
    List.mem_map_of_mem (mem_rowsByVersion.mpr hrow)
  rw [h] at hentry
  obtain ⟨migration, hmem, hsame⟩ := List.mem_map.mp hentry
  have hversion : migration.version = row.version := congrArg Prod.fst hsame
  obtain ⟨j, hj⟩ := List.mem_iff_getElem?.mp hmem
  have hlt := (List.getElem?_eq_some_iff.mp hj).1
  rw [List.length_take] at hlt
  have := (hplan.take (k := k)).version hj
  omega

end Ledger

/-! ## Scripts -/

section Scripts

variable [Sha256] {σ : Type} {executeBatch : String → Database σ → Option (Database σ)}
  {effect : String → σ → Option σ} {migrations : List Migration} {clock : Int → Int}

/-- The scripts build the schema, each with its own effect on it, and leave the ledger and the
application id to `migrate`. -/
def BuildsSchema (executeBatch : String → Database σ → Option (Database σ))
    (effect : String → σ → Option σ) (migrations : List Migration) : Prop :=
  ∀ migration ∈ migrations, ∀ db : Database σ,
    executeBatch migration.sql db
      = (effect migration.sql db.schema).map fun schema => { db with schema := schema }

/-- The effect of the scripts, once each and in order. -/
def runScripts (effect : String → σ → Option σ) : List Migration → σ → Option σ
  | [], schema => some schema
  | migration :: migrations, schema =>
    (effect migration.sql schema).bind (runScripts effect migrations)

variable (clock) in
/-- **The loop runs every script once, in order, and records it**, or fails with the first script
that fails. -/
theorem applyMigrations_cases (hscripts : BuildsSchema executeBatch effect migrations) {k : Nat}
    (hplan : ContiguousFrom k migrations) {db : Database σ} {ledger : MigrationLedger}
    (hledger : db.ledger = some ledger) (hrows : ∀ row ∈ ledger.rows, row.version ≤ k) :
    (∃ schema ledger', runScripts effect migrations db.schema = some schema
        ∧ ledger'.rows = ledger.rows ++ migrations.map (Migration.row clock)
        ∧ (applyMigrations executeBatch clock migrations).run db
            = .ok ((), { db with ledger := some ledger', schema := schema }))
      ∨ (runScripts effect migrations db.schema = none
        ∧ (applyMigrations executeBatch clock migrations).run db = .error (.error .database)) := by
  induction migrations generalizing k db ledger with
  | nil =>
      refine Or.inl ⟨db.schema, ledger, rfl, by simp, ?_⟩
      rw [applyMigrations, ← hledger]
      rfl
  | cons migration migrations ih =>
      have hscript := hscripts migration (List.mem_cons_self ..) db
      have hrest : BuildsSchema executeBatch effect migrations :=
        fun m hm => hscripts m (List.mem_cons_of_mem _ hm)
      have hversion := hplan.1
      rw [runScripts, applyMigrations]
      cases heffect : effect migration.sql db.schema with
      | none =>
          refine Or.inr ⟨rfl, ?_⟩
          have hfailed : executeBatch migration.sql db = none := by rw [hscript, heffect]; rfl
          have hrun : (applyMigration executeBatch clock migration).run db
              = .error (.error .database) := by
            rw [applyMigration]
            exact Tx.run_bind_of_error _ (Tx.run_update_none _ hfailed)
          exact Tx.run_bind_of_error _ hrun
      | some schema =>
          -- the row of the migration is above every row there
          have hran : executeBatch migration.sql db = some { db with schema := schema } := by
            rw [hscript, heffect]
            rfl
          obtain ⟨next, hinsert, hnext⟩ := MigrationLedger.insert_of_above ledger
            (migration.row clock) fun r hr => by
              have := hrows r hr
              show r.version < migration.version
              omega
          have hrecord : Database.insertMigration (migration.row clock)
              { db with schema := schema }
                = some { db with ledger := some next, schema := schema } := by
            simp only [Database.insertMigration, hledger, Option.bind_eq_bind, Option.bind_some,
              hinsert, Option.pure_def]
          have hrun : (applyMigration executeBatch clock migration).run db
              = .ok ((), { db with ledger := some next, schema := schema }) := by
            rw [applyMigration, Tx.run_bind_of_ok _ (Tx.run_update_some _ hran)]
            exact Tx.run_update_some _ hrecord
          rw [Tx.run_bind_of_ok _ hrun, Option.bind_some]
          have hle : ∀ row ∈ next.rows, row.version ≤ (k + 1 : Nat) := by
            intro row hrow
            rw [hnext] at hrow
            rcases List.mem_append.mp hrow with hold | hnew
            · have := hrows row hold
              omega
            · rw [List.mem_singleton.mp hnew]
              show migration.version ≤ _
              omega
          have hledger : (⟨db.applicationId, some next, schema⟩ : Database σ).ledger = some next := rfl
          rcases ih hrest hplan.2 hledger hle
            with ⟨schema', ledger', hscripts', hledger', happly⟩ | ⟨hscripts', happly⟩
          · refine Or.inl ⟨schema', ledger', hscripts', ?_, happly⟩
            rw [hledger', hnext, List.map_cons, List.append_assoc]
            rfl
          · exact Or.inr ⟨hscripts', happly⟩

/-! ## Migrating -/

/-- What is left of the transaction once the application id is checked. -/
theorem migrate_run {db : Database σ} (hplan : ContiguousFrom 0 migrations) (hours : db.Ours) :
    (migrate executeBatch clock migrations).run db
      = match verifyMigrationLedger migrations migrations.length db.rowsByVersion 0 with
        | .error e => .error e
        | .ok database =>
          match (applyMigrations executeBatch clock (migrations.filter fun migration =>
              decide (database < migration.version))).run db.withLedger with
          | .error e => .error e
          | .ok ((), db') => .ok ((), { db' with applicationId := applicationId }) := by
  have hverified : (verifyApplicationId : MigrationTx σ Unit).run db = .ok ((), db) := by
    rw [verifyApplicationId, Tx.run_query_bind, Tx.run_require]
    exact if_pos hours
  have hcreated : (Tx.update (fun db => some db.withLedger) (.error .database)
      : MigrationTx σ Unit).run db = .ok ((), db.withLedger) := rfl
  have hrows : db.withLedger.rowsByVersion = db.rowsByVersion := by
    rw [Database.rowsByVersion, Database.rows_withLedger, Database.rowsByVersion]
  rw [migrate, Tx.run_bind_of_ok _ hverified, Tx.run_bind_of_ok _ hcreated]
  simp only [Tx.run_query_bind, hrows, hplan.supported]
  cases verifyMigrationLedger migrations migrations.length db.rowsByVersion 0 with
  | error e => rfl
  | ok database =>
      show (applyMigrations executeBatch clock _ >>= fun _ => _).run db.withLedger = _
      rw [Tx.run_bind]
      cases hrun : (applyMigrations executeBatch clock (migrations.filter fun migration =>
          decide (database < migration.version))).run db.withLedger with
      | error e => simp only [hrun]
      | ok r =>
          simp only [hrun]
          rfl

variable (executeBatch clock migrations) in
theorem migrate_of_foreign {db : Database σ} (hours : ¬ db.Ours) :
    (migrate executeBatch clock migrations).run db
      = .error (.error (.unexpectedApplicationId db.applicationId)) := by
  have hrefused : (verifyApplicationId : MigrationTx σ Unit).run db
      = .error (.error (.unexpectedApplicationId db.applicationId)) := by
    rw [verifyApplicationId, Tx.run_query_bind, Tx.run_require]
    exact if_neg hours
  rw [migrate, Tx.run_bind_of_error _ hrefused]

variable (executeBatch clock) in
/-- A ledger that is no prefix of the plan is refused with an error. -/
theorem migrate_of_not_records {db : Database σ} (hplan : ContiguousFrom 0 migrations)
    (hours : db.Ours) (hnone : ∀ k ≤ migrations.length, ¬ db.Records (migrations.take k)) :
    ∃ e, (migrate executeBatch clock migrations).run db = .error (.error e) := by
  rw [migrate_run hplan hours]
  cases hverify : verifyMigrationLedger migrations migrations.length db.rowsByVersion 0 with
  | ok applied =>
      obtain ⟨hlength, -, hentries⟩ :=
        (verifyMigrationLedger_eq_ok hplan (k := 0) (Nat.zero_le _)).mp hverify
      rw [Nat.zero_add] at hlength
      exact absurd hentries (hnone _ hlength)
  | error failure =>
      cases failure with
      | indexOutOfBounds => exact absurd hverify (verifyMigrationLedger_bounds hplan _)
      | error e => exact ⟨e, rfl⟩

variable (clock) in
/-- **A ledger that is a prefix of the plan is completed**, unless a script fails. -/
theorem migrate_of_records {db : Database σ} (hplan : ContiguousFrom 0 migrations)
    (hscripts : BuildsSchema executeBatch effect migrations) (hours : db.Ours) {k : Nat}
    (hk : k ≤ migrations.length) (hrecords : db.Records (migrations.take k)) :
    (∃ schema ledger, runScripts effect (migrations.drop k) db.schema = some schema
        ∧ ledger.rows = db.rows ++ (migrations.drop k).map (Migration.row clock)
        ∧ (migrate executeBatch clock migrations).run db
            = .ok ((), ⟨applicationId, some ledger, schema⟩))
      ∨ (runScripts effect (migrations.drop k) db.schema = none
        ∧ (migrate executeBatch clock migrations).run db = .error (.error .database)) := by
  have hlength : db.rowsByVersion.length = k := by
    have := congrArg List.length hrecords
    rw [List.length_map, List.length_map, List.length_take] at this
    omega
  have hverify : verifyMigrationLedger migrations migrations.length db.rowsByVersion 0
      = .ok (k : Int) := by
    refine (verifyMigrationLedger_eq_ok hplan (k := 0) (Nat.zero_le _)).mpr ⟨?_, ?_, ?_⟩
    · omega
    · rw [hlength, Nat.zero_add]
    · rw [hlength]
      exact hrecords
  have hfilter : (migrations.filter fun migration => decide ((k : Int) < migration.version))
      = migrations.drop k := by
    have := hplan.filter_eq_drop k
    simpa using this
  have hdrop : ContiguousFrom k (migrations.drop k) := by
    have := hplan.drop (k := k)
    rwa [Nat.zero_add] at this
  have hrest : BuildsSchema executeBatch effect (migrations.drop k) :=
    fun m hm => hscripts m (List.mem_of_mem_drop hm)
  obtain ⟨ledger, hledger, hrows⟩ : ∃ ledger, db.withLedger.ledger = some ledger
      ∧ ledger.rows = db.rows :=
    ⟨db.ledger.getD .empty, rfl, by
      have := db.rows_withLedger
      simpa [Database.rows, Database.withLedger] using this⟩
  have hle : ∀ row ∈ ledger.rows, row.version ≤ k := by
    intro row hrow
    rw [hrows] at hrow
    exact hrecords.version_le hplan hrow
  rw [migrate_run hplan hours, hverify]
  simp only [hfilter]
  rcases applyMigrations_cases clock hrest hdrop hledger hle
    with ⟨schema, ledger', hrun, hledger', happly⟩ | ⟨hrun, happly⟩
  · refine Or.inl ⟨schema, ledger', hrun, by rw [hledger', hrows], ?_⟩
    rw [happly]
  · refine Or.inr ⟨hrun, ?_⟩
    rw [happly]

/-! ## The migration ledger -/

/-- Two files that agree but for the times their migrations were recorded at. -/
structure Database.Agrees (db db' : Database σ) : Prop where
  applicationId : db.applicationId = db'.applicationId
  schema : db.schema = db'.schema
  entries : db.rowsByVersion.map MigrationRow.entry = db'.rowsByVersion.map MigrationRow.entry

theorem ContiguousFrom.pairwise {first : Nat} {migrations : List Migration}
    (h : ContiguousFrom first migrations) :
    (migrations.map (Migration.row clock)).Pairwise MigrationRow.Le := by
  rw [List.pairwise_map, List.pairwise_iff_getElem]
  intro i j hi hj hij
  have hfirst := h.version (List.getElem?_eq_getElem hi)
  have hsecond := h.version (List.getElem?_eq_getElem hj)
  show migrations[i].version ≤ migrations[j].version
  omega

/-- **What a successful migration leaves**: the whole plan on record. -/
theorem Database.Records.complete {db : Database σ} (hplan : ContiguousFrom 0 migrations) {k : Nat}
    (hrecords : db.Records (migrations.take k)) {ledger : MigrationLedger} {id : Int} {schema : σ}
    (hledger : ledger.rows = db.rows ++ (migrations.drop k).map (Migration.row clock)) :
    (⟨id, some ledger, schema⟩ : Database σ).Records migrations := by
  have hdrop : ContiguousFrom k (migrations.drop k) := by
    have := hplan.drop (k := k)
    rwa [Nat.zero_add] at this
  have hrows : (⟨id, some ledger, schema⟩ : Database σ).rowsByVersion
      = db.rowsByVersion ++ (migrations.drop k).map (Migration.row clock) := by
    show ledger.rows.insertionSort MigrationRow.Le = _
    have hnodup := ledger.nodup
    rw [hledger] at hnodup ⊢
    refine insertionSort_append (k := k) hnodup (fun row hrow => hrecords.version_le hplan hrow)
      hdrop.pairwise ?_
    intro row hrow
    obtain ⟨migration, hmigration, rfl⟩ := List.mem_map.mp hrow
    obtain ⟨j, hj⟩ := List.mem_iff_getElem?.mp hmigration
    have := hdrop.version hj
    show (k : Int) < migration.version
    omega
  show List.map _ _ = _
  rw [hrows, List.map_append, hrecords, List.map_map]
  show (migrations.take k).map Migration.entry ++ (migrations.drop k).map Migration.entry = _
  rw [← List.map_append, List.take_append_drop]

/-- **The inversion of a migration that succeeds.** -/
theorem migrate_eq_ok {db db' : Database σ} (hplan : ContiguousFrom 0 migrations)
    (hscripts : BuildsSchema executeBatch effect migrations)
    (h : (migrate executeBatch clock migrations).run db = .ok ((), db')) :
    db.Ours ∧ db'.applicationId = applicationId ∧ db'.ledger ≠ none ∧ db'.Records migrations
      ∧ ∃ k ≤ migrations.length, db.Records (migrations.take k)
        ∧ runScripts effect (migrations.drop k) db.schema = some db'.schema := by
  have hours : db.Ours := by
    by_contra hforeign
    rw [migrate_of_foreign executeBatch migrations clock hforeign] at h
    cases h
  by_cases hany : ∃ k ≤ migrations.length, db.Records (migrations.take k)
  · obtain ⟨k, hk, hrecords⟩ := hany
    rcases migrate_of_records clock hplan hscripts hours hk hrecords
      with ⟨schema, ledger, hrun, hledger, hmigrate⟩ | ⟨-, hmigrate⟩
    · cases hmigrate.symm.trans h
      exact ⟨hours, rfl, nofun, hrecords.complete hplan hledger, k, hk, hrecords, hrun⟩
    · cases hmigrate.symm.trans h
  · obtain ⟨e, he⟩ := migrate_of_not_records executeBatch clock hplan
      hours fun k hk hrecords => hany ⟨k, hk, hrecords⟩
    cases he.symm.trans h

/-- A file that has had the whole plan is left as it is. -/
theorem migrate_of_complete {db : Database σ} (hplan : ContiguousFrom 0 migrations)
    (hscripts : BuildsSchema executeBatch effect migrations)
    (hid : db.applicationId = applicationId) (hledger : db.ledger ≠ none)
    (hrecords : db.Records migrations) :
    (migrate executeBatch clock migrations).run db = .ok ((), db) := by
  have htake : db.Records (migrations.take migrations.length) := by
    rw [List.take_length]
    exact hrecords
  obtain ⟨ledger, hsome⟩ := Option.ne_none_iff_exists'.mp hledger
  rcases migrate_of_records clock hplan hscripts (Or.inr hid) (le_refl _) htake
    with ⟨schema, ledger', hrun, hrows, hmigrate⟩ | ⟨hrun, -⟩
  · rw [List.drop_length] at hrun hrows
    cases hrun
    -- nothing is appended
    have hsame : ledger' = ledger := by
      obtain ⟨rows, hrowsKey⟩ := ledger
      obtain ⟨rows', hrowsKey'⟩ := ledger'
      simp only [List.map_nil, List.append_nil, Database.rows, hsome, Option.map_some,
        Option.getD_some] at hrows
      cases hrows
      rfl
    rw [hmigrate, hsame, ← hid, ← hsome]
  · rw [List.drop_length] at hrun
    cases hrun

/-- A migration that fails returns an error. -/
theorem migrate_eq_error {db : Database σ} (hplan : ContiguousFrom 0 migrations)
    (hscripts : BuildsSchema executeBatch effect migrations) {failure : StoreFailure}
    (h : (migrate executeBatch clock migrations).run db = .error failure) :
    ∃ e, failure = .error e := by
  by_cases hours : db.Ours
  · by_cases hany : ∃ k ≤ migrations.length, db.Records (migrations.take k)
    · obtain ⟨k, hk, hrecords⟩ := hany
      rcases migrate_of_records clock hplan hscripts hours hk hrecords
        with ⟨schema, ledger, -, -, hmigrate⟩ | ⟨-, hmigrate⟩
      · cases hmigrate.symm.trans h
      · cases hmigrate.symm.trans h
        exact ⟨_, rfl⟩
    · obtain ⟨e, he⟩ := migrate_of_not_records executeBatch clock hplan
        hours fun k hk hrecords => hany ⟨k, hk, hrecords⟩
      cases he.symm.trans h
      exact ⟨e, rfl⟩
  · cases (migrate_of_foreign executeBatch migrations clock hours).symm.trans h
    exact ⟨_, rfl⟩

/-- The check before the transaction is made again inside it. -/
theorem openWithMigrations_eq (hvalid : validateMigrationPlan migrations = .ok ())
    (db : Database σ) : openWithMigrations executeBatch clock migrations db
      = Tx.commit (migrate executeBatch clock migrations) db := by
  have hverify : (verifyApplicationId : MigrationTx σ Unit).run db
      = if db.Ours then .ok ((), db)
        else .error (.error (.unexpectedApplicationId db.applicationId)) := by
    rw [verifyApplicationId, Tx.run_query_bind, Tx.run_require]
    rfl
  rw [openWithMigrations, hvalid]
  by_cases hours : db.Ours
  · rw [if_pos hours] at hverify
    rw [Tx.commit_of_ok hverify]
  · rw [if_neg hours] at hverify
    have hmigrate := migrate_of_foreign executeBatch migrations clock hours
    simp only [Tx.commit, hverify, hmigrate]

omit [Sha256] in
/-- The scripts of a split plan. -/
theorem runScripts_append {before after : List Migration} {schema : σ} :
    runScripts effect (before ++ after) schema
      = (runScripts effect before schema).bind (runScripts effect after) := by
  induction before generalizing schema with
  | nil => rfl
  | cons migration before ih =>
      rw [List.cons_append, runScripts, runScripts]
      cases effect migration.sql schema with
      | none => rfl
      | some next =>
          rw [Option.bind_some, Option.bind_some]
          exact ih

/-- **The migration ledger.** For a contiguous plan whose scripts build the schema, and any file:
on a file of Psst's, migrating succeeds exactly when the ledger is a prefix of the plan with
matching checksums and none of the scripts after it fails; it then has run those scripts once each
and in order and recorded the whole plan; a failure leaves the file as it was and is never an index
out of bounds; opening a migrated file again changes nothing; and a prefix of the plan before the
whole plan changes neither how the call ends nor, but for the times recorded, what it leaves. -/
theorem migration_ledger (hvalid : validateMigrationPlan migrations = .ok ())
    (hscripts : BuildsSchema executeBatch effect migrations) (clock : Int → Int)
    (db : Database σ) :
    (db.Ours →
        ((∃ db', Tx.commit (migrate executeBatch clock migrations) db = (.ok (), db'))
          ↔ ∃ k ≤ migrations.length, db.Records (migrations.take k)
              ∧ (runScripts effect (migrations.drop k) db.schema).isSome))
      ∧ (∀ db', Tx.commit (migrate executeBatch clock migrations) db = (.ok (), db') →
          db'.Records migrations
            ∧ ∃ k ≤ migrations.length, db.Records (migrations.take k)
              ∧ runScripts effect (migrations.drop k) db.schema = some db'.schema)
      ∧ (∀ failure db', Tx.commit (migrate executeBatch clock migrations) db = (.error failure, db') →
          db' = db ∧ failure ≠ .indexOutOfBounds)
      ∧ (∀ db', openWithMigrations executeBatch clock migrations db = (.ok (), db') →
          ∀ clock', openWithMigrations executeBatch clock' migrations db' = (.ok (), db'))
      ∧ ∀ j ≤ migrations.length, ∀ clock₁ clock₂ db₁,
          Tx.commit (migrate executeBatch clock₁ (migrations.take j)) db = (.ok (), db₁) →
            (Tx.commit (migrate executeBatch clock₂ migrations) db₁).1
                = (Tx.commit (migrate executeBatch clock migrations) db).1
              ∧ ∀ db₂ db', Tx.commit (migrate executeBatch clock₂ migrations) db₁ = (.ok (), db₂) →
                  Tx.commit (migrate executeBatch clock migrations) db = (.ok (), db') →
                    db₂.Agrees db' := by
  have hplan : ContiguousFrom 0 migrations := validateMigrationPlanFrom_eq_ok.mp hvalid
  refine ⟨fun hours => ⟨?_, ?_⟩, fun db' hcommit => ?_, fun failure db' hcommit => ⟨?_, ?_⟩,
    fun db' hopen clock' => ?_, fun j hj clock₁ clock₂ db₁ hprefix => ?_⟩
  · rintro ⟨db', hcommit⟩
    obtain ⟨-, -, -, -, k, hk, hrecords, hrun⟩ :=
      migrate_eq_ok hplan hscripts (Tx.commit_eq_ok.mp hcommit)
    exact ⟨k, hk, hrecords, by rw [hrun]; rfl⟩
  · rintro ⟨k, hk, hrecords, hrun⟩
    rcases migrate_of_records clock hplan hscripts hours hk hrecords
      with ⟨schema, ledger, -, -, hmigrate⟩ | ⟨hnone, -⟩
    · exact ⟨_, Tx.commit_of_ok hmigrate⟩
    · rw [hnone] at hrun
      cases hrun
  · obtain ⟨-, -, -, hdone, hprefix⟩ := migrate_eq_ok hplan hscripts (Tx.commit_eq_ok.mp hcommit)
    exact ⟨hdone, hprefix⟩
  · rcases Tx.commit_cases (migrate executeBatch clock migrations) db
      with ⟨e, -, hc⟩ | ⟨u, t, -, hc⟩
    · cases hc.symm.trans hcommit
      rfl
    · cases hc.symm.trans hcommit
  · rcases Tx.commit_cases (migrate executeBatch clock migrations) db
      with ⟨e, hrun, hc⟩ | ⟨u, t, -, hc⟩
    · cases hc.symm.trans hcommit
      obtain ⟨e, rfl⟩ := migrate_eq_error hplan hscripts hrun
      exact nofun
    · cases hc.symm.trans hcommit
  · rw [openWithMigrations_eq hvalid] at hopen ⊢
    obtain ⟨-, hid, hledger, hdone, -⟩ := migrate_eq_ok hplan hscripts (Tx.commit_eq_ok.mp hopen)
    exact Tx.commit_of_ok (migrate_of_complete hplan hscripts hid hledger hdone)
  · have hbefore : BuildsSchema executeBatch effect (migrations.take j) :=
      fun m hm => hscripts m (List.mem_of_mem_take hm)
    obtain ⟨hours, hid, -, hdone, k, hk, hrecords, hran⟩ :=
      migrate_eq_ok hplan.take hbefore (Tx.commit_eq_ok.mp hprefix)
    rw [List.length_take, min_eq_left hj] at hk
    rw [List.take_take, min_eq_left hk] at hrecords
    -- what is left after the prefix is the rest of the scripts
    have hsplit : migrations.drop k = (migrations.take j).drop k ++ migrations.drop j := by
      rw [← List.take_append_drop j migrations, List.drop_append_of_le_length, List.take_append_drop]
      rw [List.length_take]
      omega
    have hrest : runScripts effect (migrations.drop k) db.schema
        = runScripts effect (migrations.drop j) db₁.schema := by
      rw [hsplit, runScripts_append, hran, Option.bind_some]
    have hwhole := migrate_of_records clock hplan hscripts hours (hk.trans hj) hrecords
    have hagain := migrate_of_records clock₂ hplan hscripts (Or.inr hid) hj hdone
    rw [hrest] at hwhole
    rcases hwhole with ⟨schema, ledger, hrun, hledger, hmigrate⟩ | ⟨hrun, hmigrate⟩
    · rcases hagain with ⟨schema', ledger', hrun', hledger', hmigrate'⟩ | ⟨hnone, -⟩
      · rw [Tx.commit_of_ok hmigrate, Tx.commit_of_ok hmigrate']
        refine ⟨rfl, ?_⟩
        rintro db₂ db' ⟨⟩ ⟨⟩
        refine ⟨rfl, ?_, ?_⟩
        · exact Option.some.inj (hrun'.symm.trans hrun)
        · exact (hdone.complete hplan hledger').trans (hrecords.complete hplan hledger).symm
      · cases hnone.symm.trans hrun
    · rcases hagain with ⟨schema', ledger', hrun', -, -⟩ | ⟨-, hmigrate'⟩
      · cases hrun'.symm.trans hrun
      · refine ⟨by simp only [Tx.commit, hmigrate, hmigrate'], ?_⟩
        intro db₂ db' hcommit
        simp only [Tx.commit, hmigrate'] at hcommit
        cases hcommit

end Scripts

namespace Sample

/-- An engine that keeps the scripts it was given. -/
def recordBatch (sql : String) (db : Database (List String)) : Option (Database (List String)) :=
  some { db with schema := db.schema ++ [sql] }

def twoMigrations : List Migration :=
  [⟨1, "CREATE TABLE squads(id TEXT) STRICT;"⟩, ⟨2, "CREATE INDEX squads_id ON squads(id);"⟩]

/-- SHA-256 on the two scripts. -/
@[reducible] def scriptDigests : Sha256 where
  digest bytes :=
    if bytes = asBytes "CREATE TABLE squads(id TEXT) STRICT;" then
      0x55af626637470a2d3e4fb83876cbe5ab44673c38e6551b2fc8eb4fae8658e827
    else if bytes = asBytes "CREATE INDEX squads_id ON squads(id);" then
      0x6fd340189e1c7f22cdca524c804c74fb156e13a0c75abf6ac111feccad52bcb1
    else 0

end Sample

open Sample in
/-- A new file gets both scripts, in order. -/
theorem migration_ledger_fresh :
    letI : Sha256 := scriptDigests
    ∃ db', Tx.commit (migrate recordBatch (fun _ => 1) twoMigrations) ⟨0, none, []⟩ = (.ok (), db')
      ∧ db'.Records twoMigrations := by
  let _ : Sha256 := scriptDigests
  have hscripts : BuildsSchema recordBatch (fun sql schema => some (schema ++ [sql]))
      twoMigrations := fun _ _ _ => rfl
  have hledger := migration_ledger (by rfl) hscripts (fun _ => 1) ⟨0, none, []⟩
  obtain ⟨db', hcommit⟩ := (hledger.1 (Or.inl rfl)).mpr ⟨0, Nat.zero_le _, rfl, rfl⟩
  exact ⟨db', hcommit, (hledger.2.1 db' hcommit).1⟩

end Psst
