import FilterStore.Proofs.Repository.Machine

/-!
The scripts on a shelf.

* **The view.** `Shelf.script?` is the script that a shelf holds under a name, with the mark and the
  date that follow from the pair.
* **Order.** `Shelf.Sound` says that the active name is held and that everything can be stored. The
  operations on shelves keep it (`Sound.put`, `Sound.activate`, `Sound.move` and so on).
* **Operations.** What an operation does to the shelf is described by the view (`script?_put`,
  `script?_activate`, `script?_move` and so on).
* **All scripts.** `Shelf.scripts` lists the view in the order of names (`find?_scripts`), and
  `sum_scripts` adds up its sizes.
-/

namespace FilterStore

/-! ### The view of a shelf -/

namespace Shelf

variable {shelf : Shelf} {owner name : String}

/-- The script with this name and content. -/
def script (shelf : Shelf) (owner name content : String) : Script :=
  ⟨owner, name, content, contentSize content, (shelf.dateOf name).isSome, shelf.dateOf name⟩

/-- The script that the shelf holds under a name. -/
def script? (shelf : Shelf) (owner name : String) : Option Script :=
  (shelf.contents.lookup name).map (shelf.script owner name)

/-- What holds of the shelves that operations lead to. -/
structure Sound (shelf : Shelf) : Prop where
  /-- The active name is held. -/
  held : ∀ p ∈ shelf.active, p.1 ∈ shelf.contents
  /-- Its date can be stored. -/
  survives : ∀ p ∈ shelf.active, p.2.Survives
  /-- The contents can be stored. -/
  fits : ∀ name content, shelf.contents.lookup name = some content →
    content.utf8ByteSize < columnBound

lemma sound_empty : Sound empty where
  held _ h := nomatch h
  survives _ h := nomatch h
  fits name content h := by
    rw [empty, Finmap.lookup_empty] at h
    cases h

lemma dateOf_eq_some_iff {t : Instant} :
    shelf.dateOf name = some t ↔ shelf.active = some (name, t) := by
  rw [dateOf]
  cases shelf.active with
  | none => simp
  | some p =>
      obtain ⟨active, date⟩ := p
      by_cases h : active = name <;> simp [h]

/-- A name without a content has no date. -/
lemma Sound.dateOf_eq_none (h : shelf.Sound) (hname : shelf.contents.lookup name = none) :
    shelf.dateOf name = none := by
  cases hdate : shelf.dateOf name with
  | none => rfl
  | some t =>
      have hheld := h.held _ (dateOf_eq_some_iff.mp hdate)
      rw [Finmap.lookup_eq_none] at hname
      exact absurd hheld hname

lemma Sound.content_fits (h : shelf.Sound) (name : String) :
    (shelf.content name).utf8ByteSize < columnBound := by
  rw [content]
  cases hlookup : shelf.contents.lookup name with
  | none => decide
  | some content => exact h.fits name content hlookup

/-- The script of a content that fits can be stored and read back. -/
lemma Sound.script_storable (h : shelf.Sound) {content : String}
    (hfit : content.utf8ByteSize < columnBound) (owner name : String) :
    (shelf.script owner name content).Storable ∧ (shelf.script owner name content).Coherent ∧
      ∀ t ∈ (shelf.script owner name content).activatedAt, t.Survives := by
  have hsize : (contentSize content).toNat < columnBound :=
    (Repository.toNat_contentSize hfit).trans_lt hfit
  refine ⟨hsize, rfl, fun t ht => ?_⟩
  have hdate : shelf.dateOf name = some t := ht
  exact h.survives (name, t) (dateOf_eq_some_iff.mp hdate)

lemma Sound.put (h : shelf.Sound) {content : String} (hfit : content.utf8ByteSize < columnBound)
    (name : String) : (shelf.put name content).Sound where
  held p hp := Finmap.mem_insert.mpr (.inr (h.held p hp))
  survives := h.survives
  fits n old hold := by
    rw [Shelf.put] at hold
    by_cases hn : n = name
    · rw [hn, Finmap.lookup_insert] at hold
      exact Option.some.inj hold ▸ hfit
    · rw [Finmap.lookup_insert_of_ne _ hn] at hold
      exact h.fits n old hold

lemma Sound.activate (h : shelf.Sound) (hname : name ∈ shelf.contents) {now : Instant}
    (hnow : now.Survives) : (shelf.activate name now).Sound where
  held p hp := by
    cases hp
    exact hname
  survives p hp := by
    cases hp
    exact hnow
  fits := h.fits

lemma Sound.switchOff (h : shelf.Sound) : shelf.switchOff.Sound where
  held _ hp := nomatch hp
  survives _ hp := nomatch hp
  fits := h.fits

lemma Sound.remove (h : shelf.Sound) (hdate : shelf.dateOf name = none) :
    (shelf.remove name).Sound where
  held p hp := by
    refine Finmap.mem_erase.mpr ⟨fun hname => ?_, h.held p hp⟩
    have hsome : shelf.dateOf name = some p.2 :=
      dateOf_eq_some_iff.mpr (hp.trans (congrArg some (Prod.ext hname rfl)))
    rw [hdate] at hsome
    cases hsome
  survives := h.survives
  fits n content hlookup := by
    rw [Shelf.remove] at hlookup
    by_cases hn : n = name
    · rw [hn, Finmap.lookup_erase] at hlookup
      cases hlookup
    · rw [Finmap.lookup_erase_ne hn] at hlookup
      exact h.fits n content hlookup

lemma Sound.move (h : shelf.Sound) {source target content : String}
    (hsource : shelf.contents.lookup source = some content) :
    (shelf.move source target content).Sound where
  held p hp := by
    obtain ⟨q, hq, rfl⟩ := Option.map_eq_some_iff.mp hp
    rw [Shelf.move]
    split_ifs with hname
    · exact Finmap.mem_insert.mpr (.inl rfl)
    · exact Finmap.mem_insert.mpr (.inr (Finmap.mem_erase.mpr ⟨hname, h.held q hq⟩))
  survives p hp := by
    obtain ⟨q, hq, rfl⟩ := Option.map_eq_some_iff.mp hp
    have hq := h.survives q hq
    split_ifs with hname
    · exact hq
    · exact hq
  fits n old hold := by
    rw [Shelf.move] at hold
    by_cases hn : n = target
    · rw [hn, Finmap.lookup_insert] at hold
      exact Option.some.inj hold ▸ h.fits source content hsource
    · rw [Finmap.lookup_insert_of_ne _ hn] at hold
      by_cases hs : n = source
      · rw [hs, Finmap.lookup_erase] at hold
        cases hold
      · rw [Finmap.lookup_erase_ne hs] at hold
        exact h.fits n old hold

/-! ### What the operations on shelves do to the view -/

/-- A content takes the place of the one under its name, with mark and date of the script there. -/
lemma script?_put (h : shelf.Sound) (owner name content n : String) :
    (shelf.put name content).script? owner n =
      if name = n then
        some (Repository.replacement owner name content (shelf.script? owner name))
      else shelf.script? owner n := by
  split_ifs with hn
  · subst hn
    rw [script?, put, Finmap.lookup_insert, Option.map_some, script?]
    cases hlookup : shelf.contents.lookup name with
    | none =>
        have hdate : ({ shelf with contents := shelf.contents.insert name content }).dateOf name
            = none := h.dateOf_eq_none hlookup
        simp only [script, hdate]
        rfl
    | some old => rfl
  · rw [script?, put, Finmap.lookup_insert_of_ne _ (Ne.symm hn)]
    rfl

/-- Without the pair every script is inactive. -/
lemma script?_switchOff (owner n : String) :
    shelf.switchOff.script? owner n = (shelf.script? owner n).map Script.deactivate := by
  rw [script?, script?, switchOff]
  cases shelf.contents.lookup n <;> rfl

/-- A script that is not the active one is not changed by switching it off. -/
lemma deactivate_script? {n : String} (h : shelf.dateOf n = none) (owner : String) :
    (shelf.script? owner n).map Script.deactivate = shelf.script? owner n := by
  rw [script?]
  cases shelf.contents.lookup n with
  | none => rfl
  | some content =>
      simp only [Option.map_some, script, h]
      rfl

/-- With another pair its name is active, and every other script is inactive. -/
lemma script?_activate (name : String) (now : Instant) (owner n : String) :
    (shelf.activate name now).script? owner n =
      if name = n then (shelf.script? owner n).map fun s => s.activate now
      else (shelf.script? owner n).map Script.deactivate := by
  have hdate : (shelf.activate name now).dateOf n = if name = n then some now else none := rfl
  unfold script?
  cases hlookup : shelf.contents.lookup n with
  | none => simp [activate, hlookup]
  | some content =>
      have hsame : (shelf.activate name now).contents.lookup n = some content := hlookup
      rw [hsame, Option.map_some, script, hdate]
      split_ifs <;> rfl

lemma script?_remove (name owner n : String) :
    (shelf.remove name).script? owner n = if name = n then none else shelf.script? owner n := by
  rw [script?, script?, remove]
  split_ifs with hn
  · rw [hn, Finmap.lookup_erase]
    rfl
  · rw [Finmap.lookup_erase_ne (Ne.symm hn)]
    rfl

/-- A move to a free name takes mark and date along. -/
lemma script?_move (h : shelf.Sound) {source target content : String}
    (hsource : shelf.contents.lookup source = some content)
    (htarget : shelf.contents.lookup target = none) (owner n : String) :
    (shelf.move source target content).script? owner n =
      if target = n then some ((shelf.script owner source content).renamed target)
      else if source = n then none else shelf.script? owner n := by
  have hne : source ≠ target := by
    rintro rfl
    rw [hsource] at htarget
    cases htarget
  -- the pair is not on the free name, so it ends up there exactly if it was on the old one
  have hdate : (shelf.move source target content).dateOf n =
      if target = n then shelf.dateOf source else if source = n then none else shelf.dateOf n := by
    have hfree := h.dateOf_eq_none htarget
    unfold dateOf move at *
    cases hactive : shelf.active with
    | none => simp
    | some p =>
        obtain ⟨active, date⟩ := p
        rw [hactive] at hfree
        have hactive : active ≠ target := by simpa using hfree
        by_cases hs : active = source
        · by_cases ht : target = n
          · simp [hs, ht]
          · by_cases hsn : source = n <;> simp [hs, ht, hsn]
        · by_cases ht : target = n
          · subst ht
            simp [hs, hactive]
          · by_cases hsn : source = n
            · subst hsn
              simp [hs, ht]
            · simp [hs, ht, hsn]
  unfold script? script
  rw [hdate]
  split_ifs with ht hs
  · subst ht
    rw [move, Finmap.lookup_insert]
    rfl
  · subst hs
    rw [move, Finmap.lookup_insert_of_ne _ (Ne.symm ht), Finmap.lookup_erase]
    rfl
  · rw [move, Finmap.lookup_insert_of_ne _ (Ne.symm ht), Finmap.lookup_erase_ne (Ne.symm hs)]

/-! ### Everything on a shelf -/

/-- The scripts of a shelf in the order of names. -/
def scripts (shelf : Shelf) (owner : String) : List Script :=
  shelf.names.map fun name => shelf.script owner name (shelf.content name)

lemma mem_names : name ∈ shelf.names ↔ name ∈ shelf.contents := by
  rw [names, Finset.mem_sort, Finmap.mem_keys]

lemma script?_of_mem (h : name ∈ shelf.contents) (owner : String) :
    shelf.script? owner name = some (shelf.script owner name (shelf.content name)) := by
  obtain ⟨content, hlookup⟩ := Finmap.mem_iff.mp h
  rw [script?, Shelf.content, hlookup]
  rfl

/-- The scripts are in the order of names. -/
lemma sorted_scripts (shelf : Shelf) (owner : String) : Table.Sorted (shelf.scripts owner) := by
  have hnames : shelf.names.Pairwise fun m n => Text.precedes m n = true :=
    ((Finset.pairwise_sort _ _).and (Finset.sort_nodup _ _)).imp fun h =>
      Text.precedes_of_atMost h.1 h.2
  exact List.pairwise_map.mpr hnames

/-- The script of a name is found among all scripts. -/
lemma find?_scripts (shelf : Shelf) (owner name : String) :
    Table.find? name (shelf.scripts owner) = shelf.script? owner name := by
  cases hlookup : shelf.contents.lookup name with
  | none =>
      have hnot : name ∉ shelf.contents := Finmap.lookup_eq_none.mp hlookup
      rw [script?, hlookup, Option.map_none, Table.find?_eq_none_iff]
      intro s hs hkey
      obtain ⟨n, hn, rfl⟩ := List.mem_map.mp hs
      exact hnot (hkey ▸ mem_names.mp hn)
  | some content =>
      have hmem : name ∈ shelf.contents := Finmap.mem_of_lookup_eq_some hlookup
      rw [script?_of_mem hmem, Table.find?_eq_some_iff (sorted_scripts shelf owner)]
      exact ⟨List.mem_map.mpr ⟨name, mem_names.mpr hmem, rfl⟩, rfl⟩

/-- The sizes of the scripts of other names add up to the bytes used beside a name. -/
lemma sum_scripts (h : shelf.Sound) (owner name : String) :
    (((shelf.scripts owner).filter fun s => s.name ≠ name).map fun s => s.size.toNat).sum
      = shelf.usedBeside name := by
  have hfilter : ((shelf.scripts owner).filter fun s => s.name ≠ name)
      = (shelf.names.filter fun n => n ≠ name).map
          fun n => shelf.script owner n (shelf.content n) := by
    rw [scripts, List.filter_map]
    rfl
  have hnames : (shelf.names.filter fun n => n ≠ name).toFinset = shelf.contents.keys.erase name := by
    ext n
    simp only [List.mem_toFinset, List.mem_filter, mem_names, decide_eq_true_eq, Finset.mem_erase,
      Finmap.mem_keys]
    exact and_comm
  have hnodup : (shelf.names.filter fun n => n ≠ name).Nodup :=
    (Finset.sort_nodup _ _).filter _
  rw [hfilter, List.map_map, usedBeside, ← hnames, List.sum_toFinset _ hnodup]
  refine congrArg List.sum (List.map_congr_left fun n _ => ?_)
  exact Repository.toNat_contentSize (h.content_fits n)

end Shelf

end FilterStore
