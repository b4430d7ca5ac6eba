import FilterStore.Proofs.Repository.Readability
import FilterStore.Proofs.Repository.Space
import FilterStore.Proofs.Store.Ownership

/-!
The space verdict is exact.

* **What is compared.** `Database.sizeBeside` adds the stored sizes of an owner's scripts of other
  names as integers without bound, whatever the sizes have to do with the contents, and
  `Database.limitColumn` is the stored limit that applies. Both are read off the rows.
* **Reading.** Where the rows can be read, the scripts add up to this sum (`sizeBeside_of_findAll`)
  and the effective limit is this column (`limitColumn_of_findLimit`).
* **The verdict.** `haveSpace_result_exact` compares the two over the integers. That the program
  adds in 64 bits, and bounds the sum after each script and once more with the request, changes
  neither the verdict nor the limit it reports, because stored limits are below `2^63`.
-/

namespace FilterStore

/-! ### What is compared -/

/-- The stored limit is the limit that the row is read as. -/
lemma QuotaRow.limit_of_meaning {r : QuotaRow} {limit : Limit} (h : r.meaning = .ok limit) :
    r.limit = limit.bytes?.map UInt64.toInt64 := by
  rw [meaning] at h
  split at h
  next hnone =>
    cases h
    exact hnone
  next i hsome =>
    split at h
    next count hcount =>
      cases h
      rw [hsome, (ofColumn?_eq_some_iff.mp hcount).2]
      rfl
    next => cases h

namespace Database

variable {db : Database} {owner name : String}

/-- The sum of the stored sizes of an owner's scripts of other names. -/
def sizeBeside (db : Database) (owner name : String) : ℤ :=
  (((db.scriptRows owner).filter fun r => r.name ≠ name).map fun r => r.size.toInt).sum

/-- The stored limit that applies to an owner: that of the owner's entry, or else that of the
default entry. Without an entry, or with an entry that sets no limit, there is none. -/
def limitColumn (db : Database) (owner : String) : Option Int64 :=
  (db.quotaRow? (.owner owner) <|> db.quotaRow? .default).bind QuotaRow.limit

/-! ### Reading -/

/-- The sizes of the listed scripts of other names add up to the sum over the rows. -/
lemma sizeBeside_of_findAll {scripts : List Script} (h : db.findAll owner = .ok scripts)
    (name : String) :
    db.sizeBeside owner name
      = ((scripts.filter fun s => s.name ≠ name).map fun s => s.size.toNat).sum := by
  have hread := mapM_eq_ok_iff.mp h
  rw [sizeBeside]
  generalize db.scriptRows owner = rows at hread
  clear h
  induction hread with
  | nil => rfl
  | @cons r s rows scripts hrs _ ih =>
      have hs := ScriptRow.script_eq_ok_iff.mp hrs
      by_cases hn : r.name = name
      · rw [List.filter_cons_of_neg (by simpa using hn),
          List.filter_cons_of_neg (by simpa [hs.name] using hn)]
        exact ih
      · rw [List.filter_cons_of_pos (by simpa using hn),
          List.filter_cons_of_pos (by simpa [hs.name] using hn), List.map_cons, List.sum_cons,
          List.map_cons, List.sum_cons, ih, hs.size, toInt_toInt64 hs.storable, Nat.cast_add]

/-- A quota row that can be read holds the limit that is looked up. -/
lemma limit_of_findLimit {key : QuotaKey} {limit : Option Limit} (h : db.findLimit key = .ok limit) :
    (limit = none ∧ db.quotaRow? key = none) ∨
      ∃ l r, limit = some l ∧ db.quotaRow? key = some r ∧
        r.limit = l.bytes?.map UInt64.toInt64 := by
  cases limit with
  | none => exact .inl ⟨rfl, optionMapM_eq_none_iff.mp h⟩
  | some l =>
      obtain ⟨r, hr, hl⟩ := optionMapM_eq_some_iff.mp h
      exact .inr ⟨l, r, rfl, hr, QuotaRow.limit_of_meaning hl⟩

/-- The effective limit is the stored limit that applies. -/
lemma limitColumn_of_findLimit {own default : Option Limit}
    (hown : db.findLimit (.owner owner) = .ok own) (hdefault : db.findLimit .default = .ok default) :
    db.limitColumn owner = (effectiveLimit own default).bytes?.map UInt64.toInt64 := by
  rw [limitColumn]
  rcases limit_of_findLimit hown with ⟨rfl, hrow⟩ | ⟨l, r, rfl, hrow, hl⟩
  · rcases limit_of_findLimit hdefault with ⟨rfl, hrow'⟩ | ⟨l, r, rfl, hrow', hl⟩
    · rw [hrow, hrow']
      rfl
    · rw [hrow, hrow']
      exact hl
  · rw [hrow]
    exact hl

/-- Where the rows behind the verdict can be read, everything it looks up is found. -/
lemma found_of_readable (hdb : db.Schema) (hscripts : ¬ db.UnreadableOwner owner)
    (hown : ¬ db.UnreadableLimit (.owner owner)) (hdefault : ¬ db.UnreadableLimit .default) :
    ∃ scripts own default, db.findAll owner = .ok scripts ∧
      db.findLimit (.owner owner) = .ok own ∧ db.findLimit .default = .ok default := by
  cases hall : db.findAll owner with
  | error f => exact absurd (findAll_fails_iff.mp ⟨f, hall⟩) hscripts
  | ok scripts =>
      cases hfind : db.findLimit (.owner owner) with
      | error f => exact absurd ((findLimit_fails_iff hdb).mp ⟨f, hfind⟩) hown
      | ok own =>
          cases hfind' : db.findLimit .default with
          | error f => exact absurd ((findLimit_fails_iff hdb).mp ⟨f, hfind'⟩) hdefault
          | ok default => exact ⟨scripts, own, default, rfl, rfl, rfl⟩

end Database

/-! ### The verdict -/

namespace Repository

variable {db : Database} {owner : String}

/-- The result of the question whether bytes fit is the verdict. -/
lemma result_haveSpace (ho : checkOwner owner = .ok ()) (name : String) (size : UInt64)
    (db : Database) :
    (haveSpace owner name size db).result = spaceVerdict owner name size db := by
  rw [haveSpace_eq ho]
  cases spaceVerdict owner name size db <;> rfl

/-- **The space verdict is exact arithmetic.** Where the rows of the owner and the two quota rows
can be read, so many bytes fit exactly if there is no limit or the exact sum of the other scripts'
sizes and the request is at most the limit. Otherwise the error tells the request, the limit that
applies and the sum, or the greatest 64-bit number if that is less, and even by these numbers the
request does not fit. -/
theorem haveSpace_result_exact (hdb : db.Schema) (ho : Name.Valid .owner owner)
    (hscripts : ¬ db.UnreadableOwner owner) (hown : ¬ db.UnreadableLimit (.owner owner))
    (hdefault : ¬ db.UnreadableLimit .default) (name : String) (size : UInt64) :
    ((haveSpace owner name size db).result = .ok () ↔
      ∀ limit ∈ db.limitColumn owner, db.sizeBeside owner name + size.toNat ≤ limit.toInt) ∧
    ((haveSpace owner name size db).result ≠ .ok () →
      ∃ used limit column,
        (haveSpace owner name size db).result = .error (.quotaExceeded owner used size limit) ∧
        db.limitColumn owner = some column ∧ limit.toNat = column.toInt ∧
        used.toNat = min (db.sizeBeside owner name) (2 ^ 64 - 1) ∧
        limit.toNat < used.toNat + size.toNat) := by
  obtain ⟨scripts, own, default, hall, hown, hdefault⟩ :=
    Database.found_of_readable hdb hscripts hown hdefault
  have hused := Operation.toNat_usedBeside_eq_min name scripts
  rw [result_haveSpace (Name.require_eq_ok_iff.mpr ho), spaceVerdict_of_found hall hown hdefault,
    Database.limitColumn_of_findLimit hown hdefault, Database.sizeBeside_of_findAll hall name]
  generalize hn : ((scripts.filter fun s => s.name ≠ name).map fun s => s.size.toNat).sum = n at hused
  cases heffective : effectiveLimit own default with
  | unlimited => exact ⟨⟨fun _ => nofun, fun _ => rfl⟩, fun hne => absurd rfl hne⟩
  | bytes count =>
      have hcount : count.toNat < columnBound :=
        Database.lt_columnBound_of_effectiveLimit hown hdefault heffective
      have hcolumn : (Limit.bytes count).bytes?.map UInt64.toInt64 = some count.toInt64 := rfl
      have hadmits : (Limit.bytes count).admits _ size = true ↔ n + size.toNat ≤ count.toNat :=
        admits_iff hused hcount
      rw [hcolumn]
      simp only [Option.mem_some_iff, forall_eq', toInt_toInt64 hcount]
      by_cases hfits : n + size.toNat ≤ count.toNat
      · rw [if_pos (hadmits.mpr hfits)]
        exact ⟨⟨fun _ => by exact_mod_cast hfits, fun _ => rfl⟩, fun hne => absurd rfl hne⟩
      · rw [if_neg (mt hadmits.mp hfits)]
        have hbound : columnBound < UInt64.size - 1 := by decide
        have hsize : ((UInt64.size - 1 : ℕ) : ℤ) = 2 ^ 64 - 1 := by decide
        refine ⟨⟨nofun, fun hle => absurd (by exact_mod_cast hle) hfits⟩, fun _ => ?_⟩
        refine ⟨_, count, _, rfl, rfl, (toInt_toInt64 hcount).symm, ?_, ?_⟩
        · rw [hused, Nat.cast_min, hsize]
        · omega

/-- Three scripts of the greatest size, beside which a fourth one is to be stored: the exact sum of
the sizes does not fit 64 bits. -/
theorem haveSpace_result_exact_saturated :
    let row (name : String) : ScriptRow := ⟨"ann", name, "keep;", 9223372036854775807, 0, none⟩
    let db : Database := ⟨[row "day", row "night", row "week"], [⟨"", some 9223372036854775807⟩]⟩
    ∃ used limit column,
      (haveSpace "ann" "year" 5 db).result = .error (.quotaExceeded "ann" used 5 limit) ∧
      db.limitColumn "ann" = some column ∧ limit.toNat = column.toInt ∧
      used.toNat = min (db.sizeBeside "ann" "year") (2 ^ 64 - 1) ∧
      limit.toNat < used.toNat + (5 : UInt64).toNat := by
  intro row db
  have hdb : db.Schema := by decide +kernel
  have ho : Name.Valid .owner "ann" := Name.check_eq_ok_iff.mp (by decide +kernel)
  have hscripts : ¬ db.UnreadableOwner "ann" := by
    rw [Database.UnreadableOwner, ← Database.findAll_fails_iff]
    rintro ⟨f, hf⟩
    cases hf
  have hlimit : ∀ key, ¬ db.UnreadableLimit key := by
    rintro key ⟨r, hr, -, i, hi, hneg⟩
    rw [List.mem_singleton.mp hr] at hi
    cases hi
    exact absurd hneg (by decide)
  have hexact := haveSpace_result_exact hdb ho hscripts (hlimit _) (hlimit _) "year" 5
  refine hexact.2 (mt hexact.1.mp fun hfits => ?_)
  exact absurd (hfits 9223372036854775807 (by decide +kernel)) (by decide +kernel)

/-! ### What storing makes of it -/

variable {name content : String}

/-- Storing a content fails exactly if its bytes do not fit, and in the same way. -/
lemma result_put (hdb : db.Schema) (hname : Name.Valid .script name)
    (hfit : content.utf8ByteSize < columnBound) (owner : String) :
    (put owner name content db).result = (haveSpace owner name (contentSize content) db).result := by
  cases ho : checkOwner owner with
  | error e =>
      have hc : checkScript owner name = .error e := by
        rw [checkOwner] at ho
        rw [checkScript, ho]
        rfl
      rw [put, haveSpace, afterChecks_of_error ho, afterChecks_of_error hc]
  | ok u =>
      have hc : checkScript owner name = .ok () :=
        checkScript_eq_ok_iff.mpr ⟨ho, Name.require_eq_ok_iff.mpr hname⟩
      rw [result_haveSpace ho]
      cases hv : spaceVerdict owner name (contentSize content) db with
      | error e =>
          rw [put_refused hc hv]
          rfl
      | ok u =>
          obtain ⟨previous, -, hput⟩ := put_stored hdb hc hfit hv
          rw [hput]

/-- The row that a content is stored as has its length as size, and is marked exactly if the row
that it replaces is. -/
lemma scriptRow?_store_replacement (hdb : db.Schema) (hfit : content.utf8ByteSize < columnBound)
    {previous : Option Script} (hfind : db.findScript owner name = .ok previous) :
    ∃ r, (db.store (replacement owner name content previous)).scriptRow? owner name = some r ∧
      r.content = content ∧ r.size.toInt = content.utf8ByteSize ∧
      (r.Marked ↔ ∃ p ∈ db.scripts, p.owner = owner ∧ p.name = name ∧ p.Marked) := by
  have hsize : (contentSize content).toInt64.toInt = content.utf8ByteSize := by
    rw [toInt_toInt64 ((toNat_contentSize hfit).trans_lt hfit), toNat_contentSize hfit]
  have hrow : (db.store (replacement owner name content previous)).scriptRow? owner name
      = some (replacement owner name content previous).stored := by
    rw [Database.scriptRow?_store hdb, if_pos]
    exact ⟨Operation.replacement_owner .., Operation.replacement_name ..⟩
  cases previous with
  | none =>
      have hnone := Database.scriptRow?_eq_none_iff.mp (optionMapM_eq_none_iff.mp hfind)
      refine ⟨_, hrow, rfl, hsize, ?_⟩
      rw [Script.stored_marked]
      exact ⟨nofun, fun ⟨p, hp, ho, hn, _⟩ => absurd ⟨ho, hn⟩ (hnone p hp)⟩
  | some s =>
      obtain ⟨p, hp, hps⟩ := optionMapM_eq_some_iff.mp hfind
      obtain ⟨hmem, ho, hn⟩ := (Database.scriptRow?_eq_some_iff hdb).mp hp
      have hmark : p.Marked ↔ s.active = true :=
        (ScriptRow.script_eq_ok_iff.mp hps).marked_iff (hdb.coherent p hmem)
      refine ⟨_, hrow, rfl, hsize, ?_⟩
      rw [Script.stored_marked]
      refine ⟨fun ha => ⟨p, hmem, ho, hn, hmark.mpr ha⟩, ?_⟩
      rintro ⟨q, hq, hqo, hqn, hqm⟩
      have hsame : some p = some q :=
        hp.symm.trans ((Database.scriptRow?_eq_some_iff hdb).mpr ⟨hq, hqo, hqn⟩)
      rw [← Option.some.inj hsame] at hqm
      exact hmark.mp hqm

/-- **The question predicts the put.** Storing a content succeeds exactly if its bytes fit, and
otherwise fails in the same way, whatever rows there are. A put that succeeds leaves the content
with its length as size, marked exactly if the script was there and marked before, and touches
nothing else. -/
theorem put_predicted (hdb : db.Schema) (hname : Name.Valid .script name)
    (hfit : content.utf8ByteSize < columnBound) (owner : String) :
    let stored := put owner name content db
    stored.result = (haveSpace owner name (.ofNat content.utf8ByteSize) db).result ∧
    (stored.result = .ok () →
      (∃ r, stored.database.scriptRow? owner name = some r ∧ r.content = content ∧
        r.size.toInt = content.utf8ByteSize ∧
        (r.Marked ↔ ∃ p ∈ db.scripts, p.owner = owner ∧ p.name = name ∧ p.Marked)) ∧
      Database.SameBut (fun o n => o = owner ∧ n = name) db stored.database) := by
  intro stored
  refine ⟨result_put hdb hname hfit owner, fun hok => ?_⟩
  rcases put_cases owner name content db with ⟨e, hresult, -⟩ | ⟨previous, -, -, hfind, -, hput⟩
  · rw [hresult] at hok
    cases hok
  · have hleft : stored.database = db.store (replacement owner name content previous) :=
      congrArg Outcome.database hput
    rw [hleft]
    exact ⟨scriptRow?_store_replacement hdb hfit hfind, (Database.SameBut.refl db).store hdb
      ⟨Operation.replacement_owner .., Operation.replacement_name ..⟩⟩

/-- An active script is replaced, and stays active, beside one that bears another mark than 0 and
1. -/
theorem put_predicted_active :
    let db : Database :=
      ⟨[⟨"ann", "day", "keep;", 7, 1, some "2024-05-01T10:00:00Z"⟩,
        ⟨"ann", "night", "stop;", 90, 2, none⟩], [⟨"ann", some 100⟩]⟩
    let stored := put "ann" "day" "discard;" db
    stored.result = .ok () ∧
      ∃ r, stored.database.scriptRow? "ann" "day" = some r ∧ r.content = "discard;" ∧
        r.size.toInt = 8 ∧ r.Marked := by
  intro db stored
  have hdb : db.Schema := by decide +kernel
  have hname : Name.Valid .script "day" := Name.check_eq_ok_iff.mp (by decide +kernel)
  have hfit : "discard;".utf8ByteSize < columnBound := by decide +kernel
  obtain ⟨hresult, hleft⟩ := put_predicted hdb hname hfit "ann"
  have hok : stored.result = .ok () := hresult.trans (by decide +kernel)
  obtain ⟨⟨r, hr, hcontent, hsize, hmark⟩, -⟩ := hleft hok
  exact ⟨hok, r, hr, hcontent, hsize, hmark.mpr ⟨_, List.mem_cons_self, rfl, rfl, rfl⟩⟩

end Repository

end FilterStore
