import PocketShell.Proofs.Fs.Acceptance

/-! What the checks of a snapshot say to the table of a linked volume. They note exactly the entries
that its directories list, in their order, so that taking the table over changes nothing in it; and
they refuse it only when an inode is not reached from the root. -/
namespace PocketShell.Snapshot

open Volume

variable {ρ : Type} {volume : Volume} {rootId id directory : String} {inodes : List Inode}
  {table : List (Record ρ)} {parents : List (String × String)}
  {idOf : ρ → Except SnapshotFailure (Except String String)} {refer : String → ρ}
  {describe : Inode → Record ρ}

/-- Records that say of inodes what these say of themselves, and name entries in a way of their
own. -/
structure Describes (idOf : ρ → Except SnapshotFailure (Except String String))
    (refer : String → ρ) (describe : Inode → Record ρ) : Prop where
  resolved : ∀ id, idOf (refer id) = .ok (.ok id)
  id : ∀ inode, (describe inode).id = inode.id
  name : ∀ inode, (describe inode).name = inode.name
  type : ∀ inode, (describe inode).type = inode.type
  children : ∀ inode, (describe inode).children = inode.children.map refer
  adopt : ∀ parents inode, adopt parents (describe inode) = Snapshot.adopt parents inode

/-- Inodes describe themselves. -/
theorem describes_self :
    Describes (fun id => .ok (.ok id)) (fun id => id) (fun inode : Inode => inode) where
  resolved := fun _ => rfl
  id := fun _ => rfl
  name := fun _ => rfl
  type := fun _ => rfl
  children := fun _ => (List.map_id' _).symm
  adopt := fun _ _ => rfl

/-- Who lists which inode. -/
def listings (inodes : List Inode) : List (String × String) :=
  inodes.flatMap fun inode => inode.children.map (·, inode.id)

theorem mem_listings {child holder : String} :
    (child, holder) ∈ listings inodes ↔
      ∃ inode ∈ inodes, inode.id = holder ∧ child ∈ inode.children := by
  simp only [listings, List.mem_flatMap, List.mem_map, Prod.mk.injEq]
  constructor
  · rintro ⟨inode, member, entry, listed, rfl, rfl⟩
    exact ⟨inode, member, rfl, listed⟩
  · rintro ⟨inode, member, rfl, listed⟩
    exact ⟨inode, member, child, listed, rfl, rfl⟩

theorem mem_listings_iff (keyed : volume.Keyed) {child holder : String} :
    (child, holder) ∈ listings volume.inodes ↔ volume.Lists holder child := by
  rw [mem_listings]
  constructor
  · rintro ⟨directory, inside, rfl, listed⟩
    exact ⟨directory, keyed.inode?_of_mem inside, listed⟩
  · rintro ⟨directory, found, listed⟩
    exact ⟨directory, mem_of_inode? found, id_of_inode? found, listed⟩

theorem keys_listings (inodes : List Inode) :
    (listings inodes).map (·.1) = inodes.flatMap (·.children) := by
  simp [listings, List.map_flatMap, Function.comp_def]

/-! ## Going through the entries -/

/-- An entry that exists, is not the root, is listed nowhere yet and has a new name is noted. -/
private theorem checkEntry_eq (directory : String) {reference : ρ} {child : Record ρ}
    {names : List String} (resolved : idOf reference = .ok (.ok id)) (found : table.find? (·.id == id) = some child)
    (inner : id ≠ rootId) (unused : id ∉ parents.map (·.1)) (free : child.name ∉ names) :
    checkEntry rootId table idOf directory ⟨parents, names⟩ reference =
      .ok ⟨parents ++ [(id, directory)], child.name :: names⟩ := by
  have once : (parents.lookup id).isSome = false := by
    rw [lookup_eq_none_iff.mpr unused]
    rfl
  have new : names.contains child.name = false := by simpa using free
  unfold checkEntry
  rw [resolved]
  simp only [bind, Except.bind, found, inner, once, new]
  rfl

/-- So the entries of a directory are noted one after the other. -/
private theorem checkDirectory_eq (directory : String) (resolved : ∀ id, idOf (refer id) = .ok (.ok id))
    {children names : List String} (once : (parents.map (·.1) ++ children).Nodup)
    (known : ∀ id ∈ children, id ≠ rootId ∧ ∃ child, table.find? (·.id == id) = some child ∧
      child.name ∉ names)
    (differ : ∀ a ∈ children, ∀ b ∈ children, ∀ first second,
      table.find? (·.id == a) = some first → table.find? (·.id == b) = some second →
      first.name = second.name → a = b) :
    ∃ after, (children.map refer).foldlM (checkEntry rootId table idOf directory)
      ⟨parents, names⟩ = .ok ⟨parents ++ children.map (·, directory), after⟩ := by
  induction children generalizing parents names with
  | nil => exact ⟨names, by simp [pure, Except.pure]⟩
  | cons id rest ih =>
    obtain ⟨inner, child, found, free⟩ := known id List.mem_cons_self
    have unused : id ∉ parents.map (·.1) := by
      intro earlier
      exact (List.nodup_append.mp once).2.2 id earlier id List.mem_cons_self rfl
    have step := checkEntry_eq directory (resolved id) found inner unused free
    have split : (parents ++ [(id, directory)]).map (·.1) ++ rest =
        parents.map (·.1) ++ id :: rest := by simp
    have later : ∀ entry ∈ rest, entry ≠ rootId ∧ ∃ record,
        table.find? (·.id == entry) = some record ∧ record.name ∉ child.name :: names := by
      intro entry member
      obtain ⟨inner, record, present, new⟩ := known entry (List.mem_cons_of_mem id member)
      refine ⟨inner, record, present, ?_⟩
      rw [List.mem_cons, not_or]
      refine ⟨fun same => ?_, new⟩
      have again := differ entry (List.mem_cons_of_mem id member) id List.mem_cons_self record child
        present found same
      exact (List.nodup_cons.mp (List.nodup_append.mp once).2.1).1 (again ▸ member)
    obtain ⟨after, ran⟩ := ih (split ▸ once) later fun a first b second =>
      differ a (List.mem_cons_of_mem id first) b (List.mem_cons_of_mem id second)
    refine ⟨after, ?_⟩
    rw [List.append_assoc, List.singleton_append] at ran
    rw [List.map_cons, List.foldlM_cons, step]
    exact ran

/-- Every inode is listed at most once, under a name that no other entry beside it has; what is
listed exists and is not the root. -/
structure Orderly (volume : Volume) : Prop where
  once : (volume.inodes.flatMap (·.children)).Nodup
  known : ∀ inode ∈ volume.inodes, ∀ id ∈ inode.children,
    id ≠ volume.rootId ∧ ∃ child, volume.inode? id = some child
  differ : ∀ inode ∈ volume.inodes, ∀ a ∈ inode.children, ∀ b ∈ inode.children, ∀ first second,
    volume.inode? a = some first → volume.inode? b = some second → first.name = second.name → a = b

theorem Orderly.of_linked (linked : volume.Linked) : Orderly volume where
  once := by
    rw [List.nodup_flatMap]
    refine ⟨fun inode member => linked.once _ _ (linked.keyed.inode?_of_mem member), ?_⟩
    have differ : volume.inodes.Pairwise fun first second => first.id ≠ second.id :=
      List.pairwise_map.mp linked.keyed
    refine differ.imp_of_mem fun {first second} here there apart => ?_
    intro entry listed again
    exact apart (linked.lists_unique ⟨first, linked.keyed.inode?_of_mem here, listed⟩
      ⟨second, linked.keyed.inode?_of_mem there, again⟩)
  known := by
    intro inode member id listed
    have lists : volume.Lists inode.id id := ⟨inode, linked.keyed.inode?_of_mem member, listed⟩
    obtain ⟨child, found, -⟩ := (linked.lists_iff _ _).mp lists
    refine ⟨?_, child, found⟩
    rintro rfl
    exact linked.root_unlisted lists
  differ := by
    intro inode member a listed b also first second foundA foundB same
    have held := linked.keyed.inode?_of_mem member
    exact linked.names a b first second foundA foundB
      ((linked.parent_of_lists ⟨inode, held, listed⟩ foundA).trans
        (linked.parent_of_lists ⟨inode, held, also⟩ foundB).symm) same

private theorem find_describe (describes : Describes idOf refer describe) :
    (volume.inodes.map describe).find? (·.id == id) = (volume.inode? id).map describe := by
  rw [List.find?_map]
  congr 1
  unfold Volume.inode?
  congr 1
  funext inode
  simp [describes.id]

/-- The directories of an orderly volume are gone through one after the other. -/
private theorem checkDirectories_eq (describes : Describes idOf refer describe)
    (orderly : Orderly volume) (within : ∀ inode ∈ inodes, inode ∈ volume.inodes)
    (once : (parents.map (·.1) ++ inodes.flatMap (·.children)).Nodup) :
    (inodes.map describe).foldlM (fun parents inode => do
      let listing ← inode.children.foldlM
        (checkEntry volume.rootId (volume.inodes.map describe) idOf inode.id) ⟨parents, []⟩
      return listing.parents) parents = .ok (parents ++ listings inodes) := by
  induction inodes generalizing parents with
  | nil => simp [listings, pure, Except.pure]
  | cons inode rest ih =>
    have member := within inode List.mem_cons_self
    rw [List.flatMap_cons, ← List.append_assoc] at once
    have known : ∀ id ∈ inode.children, id ≠ volume.rootId ∧ ∃ child,
        (volume.inodes.map describe).find? (·.id == id) = some child ∧ child.name ∉ [] := by
      intro id listed
      obtain ⟨inner, child, found⟩ := orderly.known inode member id listed
      exact ⟨inner, describe child, by rw [find_describe describes, found]; rfl, by simp⟩
    have differ : ∀ a ∈ inode.children, ∀ b ∈ inode.children, ∀ first second,
        (volume.inodes.map describe).find? (·.id == a) = some first →
        (volume.inodes.map describe).find? (·.id == b) = some second →
        first.name = second.name → a = b := by
      intro a listed b also first second foundA foundB same
      rw [find_describe describes, Option.map_eq_some_iff] at foundA foundB
      obtain ⟨one, foundA, rfl⟩ := foundA
      obtain ⟨two, foundB, rfl⟩ := foundB
      rw [describes.name, describes.name] at same
      exact orderly.differ inode member a listed b also one two foundA foundB same
    obtain ⟨names, ran⟩ := checkDirectory_eq inode.id describes.resolved
      (List.nodup_append.mp once).1 known differ
    have keys : (parents ++ inode.children.map (·, inode.id)).map (·.1) =
        parents.map (·.1) ++ inode.children := by
      simp [Function.comp_def]
    rw [← keys] at once
    have further := ih (fun inode inside => within inode (List.mem_cons_of_mem _ inside)) once
    rw [List.append_assoc] at further
    rw [List.map_cons, List.foldlM_cons, describes.id, describes.children, ran]
    exact further

/-- The checks go through an orderly table and note what it lists. -/
theorem checkEntries_eq (describes : Describes idOf refer describe) (orderly : Orderly volume) :
    checkEntries volume.rootId (volume.inodes.map describe) idOf =
      .ok (listings volume.inodes) := by
  have once : (([] : List (String × String)).map (·.1) ++
      volume.inodes.flatMap (·.children)).Nodup := orderly.once
  exact checkDirectories_eq describes orderly (fun _ member => member) once

/-! ## Taking over -/

theorem nodup_keys_listings (orderly : Orderly volume) :
    ((listings volume.inodes).map (·.1)).Nodup := by
  rw [keys_listings]
  exact orderly.once

private theorem entriesOf_own (children : List String) (holder directory : String) :
    entriesOf (children.map (·, holder)) directory = if holder = directory then children else [] := by
  by_cases same : holder = directory <;> simp [entriesOf, same, List.filter_map, Function.comp_def]

private theorem entriesOf_cons (inode : Inode) (rest : List Inode) (directory : String) :
    entriesOf (listings (inode :: rest)) directory =
      (if inode.id = directory then inode.children else []) ++ entriesOf (listings rest) directory := by
  rw [← entriesOf_own, listings, List.flatMap_cons, entriesOf, List.filter_append, List.map_append]
  rfl

/-- The entries noted for a directory are those that it lists, in their order. -/
theorem entriesOf_listings {inode : Inode} (keyed : (inodes.map (·.id)).Nodup)
    (member : inode ∈ inodes) : entriesOf (listings inodes) inode.id = inode.children := by
  induction inodes with
  | nil => cases member
  | cons head rest ih =>
    rw [List.map_cons, List.nodup_cons] at keyed
    rw [entriesOf_cons]
    rcases List.mem_cons.mp member with rfl | further
    · have none : entriesOf (listings rest) inode.id = [] := by
        refine List.eq_nil_iff_forall_not_mem.mpr fun child listed => ?_
        obtain ⟨other, inside, same, -⟩ := mem_listings.mp (mem_entriesOf.mp listed)
        exact keyed.1 (same ▸ List.mem_map_of_mem inside)
      rw [if_pos rfl, none, List.append_nil]
    · have differs : head.id ≠ inode.id := by
        intro same
        exact keyed.1 (same ▸ List.mem_map_of_mem further)
      rw [if_neg differs, List.nil_append]
      exact ih keyed.2 further

/-- Taking over the parents that a linked volume lists changes no inode of it. -/
theorem adopt_listings {inode : Inode} (linked : volume.Linked) (member : inode ∈ volume.inodes) :
    adopt (listings volume.inodes) inode = inode := by
  have entries := entriesOf_listings linked.keyed member
  have held := linked.keyed.inode?_of_mem member
  have parent : (listings volume.inodes).lookup inode.id = inode.parent := by
    ext holder
    rw [lookup_eq_some_iff (nodup_keys_listings (.of_linked linked)),
      mem_listings_iff linked.keyed, linked.lists_iff, held]
    simp
  obtain ⟨id, name, mode, owner, group, size, created, modified, payload, above⟩ := inode
  unfold adopt
  rw [entries, parent]
  cases payload <;> rfl

/-! ## What is reached -/

/-- Every id is visited that can be reached: what has been seen and is not waiting has had its entries
seen, and there are more steps left than inodes to visit. -/
theorem reach_complete {steps : ℕ} {waiting seen ids : List String}
    (once : (parents.map (·.1)).Nodup) (known : ∀ child holder, (child, holder) ∈ parents → child ∈ ids)
    (distinct : seen.Nodup) (within : seen ⊆ ids) (open_ : waiting ⊆ seen)
    (closed : ∀ id ∈ seen, id ∉ waiting → ∀ child, (child, id) ∈ parents → child ∈ seen)
    (enough : ids.length + waiting.length < steps + seen.length) :
    seen ⊆ reach parents steps waiting seen ∧
      ∀ id ∈ reach parents steps waiting seen, ∀ child, (child, id) ∈ parents →
        child ∈ reach parents steps waiting seen := by
  induction steps generalizing waiting seen with
  | zero =>
    have bound := (List.Nodup.subperm distinct within).length_le
    omega
  | succ steps ih =>
    cases waiting with
    | nil =>
      unfold reach
      exact ⟨fun _ member => member, fun id member => closed id member List.not_mem_nil⟩
    | cons first rest =>
      have fresh_mem : ∀ child, child ∈ (entriesOf parents first).filter
          (fun child => !seen.contains child) ↔ (child, first) ∈ parents ∧ child ∉ seen := by
        intro child
        rw [List.mem_filter, mem_entriesOf]
        simp
      have distinct_fresh : ((entriesOf parents first).filter
          (fun child => !seen.contains child)).Nodup := (nodup_entriesOf once).filter _
      unfold reach
      generalize (entriesOf parents first).filter (fun child => !seen.contains child) = fresh
        at fresh_mem distinct_fresh ⊢
      have distinct' : (seen ++ fresh).Nodup := by
        refine List.nodup_append.mpr ⟨distinct, distinct_fresh, fun a old b new same => ?_⟩
        exact ((fresh_mem b).mp new).2 (same ▸ old)
      have within' : seen ++ fresh ⊆ ids := by
        refine List.append_subset.mpr ⟨within, fun child new => ?_⟩
        exact known child first ((fresh_mem child).mp new).1
      have open' : fresh ++ rest ⊆ seen ++ fresh := by
        refine List.append_subset.mpr ⟨List.subset_append_right seen fresh, fun id waits => ?_⟩
        exact List.mem_append_left fresh (open_ (List.mem_cons_of_mem first waits))
      have closed' : ∀ id ∈ seen ++ fresh, id ∉ fresh ++ rest →
          ∀ child, (child, id) ∈ parents → child ∈ seen ++ fresh := by
        intro id member done child listed
        rw [List.mem_append, not_or] at done
        by_cases old : child ∈ seen
        · exact List.mem_append_left fresh old
        by_cases here : id = first
        · subst here
          exact List.mem_append_right seen ((fresh_mem child).mpr ⟨listed, old⟩)
        · have before : id ∈ seen := (List.mem_append.mp member).resolve_right done.1
          have passed : id ∉ first :: rest := by
            rw [List.mem_cons, not_or]
            exact ⟨here, done.2⟩
          exact absurd (closed id before passed child listed) old
      have enough' : ids.length + (fresh ++ rest).length < steps + (seen ++ fresh).length := by
        rw [List.length_append, List.length_append]
        rw [List.length_cons] at enough
        omega
      obtain ⟨grown, whole⟩ := ih distinct' within' open' closed' enough'
      exact ⟨fun id member => grown (List.mem_append_left fresh member), whole⟩

/-- Exactly the inodes below the root are reached. -/
theorem mem_reach_listings (keyed : volume.Keyed) (orderly : Orderly volume) {root : Inode}
    (found : volume.inode? volume.rootId = some root) :
    id ∈ reach (listings volume.inodes) (volume.inodes.length + 1) [volume.rootId]
      [volume.rootId] ↔ volume.Below volume.rootId id := by
  constructor
  · intro reached
    have start : ∀ id ∈ [volume.rootId], Relation.ReflTransGen
        (fun a b => (b, a) ∈ listings volume.inodes) volume.rootId id := by
      intro id member
      rw [List.mem_singleton.mp member]
    refine Relation.ReflTransGen.mono ?_ _ _ (reach_sound start start id reached)
    intro holder child listed
    exact (mem_listings_iff keyed).mp listed
  · intro below
    have known : ∀ child holder, (child, holder) ∈ listings volume.inodes →
        child ∈ volume.inodes.map (·.id) := by
      intro child holder listed
      obtain ⟨directory, member, -, entry⟩ := mem_listings.mp listed
      obtain ⟨-, inode, present⟩ := orderly.known directory member child entry
      exact List.mem_map.mpr ⟨inode, mem_of_inode? present, id_of_inode? present⟩
    have within : [volume.rootId] ⊆ volume.inodes.map (·.id) := by
      intro id member
      rw [List.mem_singleton.mp member]
      exact List.mem_map.mpr ⟨root, mem_of_inode? found, id_of_inode? found⟩
    obtain ⟨start, closed⟩ := reach_complete (nodup_keys_listings orderly) known
      (List.nodup_singleton _) within (List.Subset.refl _) (fun id member waits => absurd member waits)
      (show (volume.inodes.map (·.id)).length + [volume.rootId].length <
        volume.inodes.length + 1 + [volume.rootId].length by simp)
    induction below with
    | refl => exact start List.mem_cons_self
    | tail _ listed ih => exact closed _ ih _ ((mem_listings_iff keyed).mpr listed)

/-- A linked volume is accepted as it is when all of it hangs below the root; else an inode that does
not is named as the reason of the refusal. -/
theorem validate_linked (describes : Describes idOf refer describe) (linked : volume.Linked) :
    (volume.Rooted ∧ validate idOf volume.rootId (volume.inodes.map describe) =
      .ok (.ofVolume volume)) ∨
    (¬ volume.Rooted ∧ ∃ orphan, validate idOf volume.rootId (volume.inodes.map describe) =
      .error (.corrupt .unreachable (some orphan))) := by
  obtain ⟨root, found, shape, -⟩ := linked.root
  have present : (volume.inodes.map describe).find? (·.id == volume.rootId) =
      some (describe root) := by
    rw [find_describe describes, found]
    rfl
  have directory : (describe root).isDirectory = true := by
    rwa [Record.isDirectory, describes.type]
  have whole : (volume.inodes.map describe).map (adopt (listings volume.inodes)) =
      volume.inodes := by
    rw [List.map_map]
    conv_rhs => rw [← List.map_id volume.inodes]
    refine List.map_congr_left fun inode member => ?_
    exact (describes.adopt _ inode).trans (adopt_listings linked member)
  have reached_iff : ∀ id, id ∈ reach (listings volume.inodes) (volume.inodes.length + 1)
      [volume.rootId] [volume.rootId] ↔ volume.Below volume.rootId id :=
    fun _ => mem_reach_listings linked.keyed (.of_linked linked) found
  unfold validate
  simp only [present, directory, Bool.not_true, Bool.false_eq_true, ↓reduceIte,
    checkEntries_eq describes (.of_linked linked), bind, Except.bind, List.length_map]
  cases orphans : (volume.inodes.map describe).find? fun inode =>
      !(reach (listings volume.inodes) (volume.inodes.length + 1) [volume.rootId]
        [volume.rootId]).contains inode.id with
  | none =>
    refine .inl ⟨⟨linked, fun id inode held => ?_⟩, ?_⟩
    · have reached := List.find?_eq_none.mp orphans (describe inode)
        (List.mem_map_of_mem (mem_of_inode? held))
      rw [describes.id, id_of_inode? held] at reached
      exact (reached_iff id).mp (by simpa using reached)
    · rw [whole]
      rfl
  | some orphan =>
    refine .inr ⟨fun rooted => ?_, orphan.id, rfl⟩
    obtain ⟨inode, member, rfl⟩ := List.mem_map.mp (List.mem_of_find?_eq_some orphans)
    have missed := List.find?_some orphans
    have reached := (reached_iff inode.id).mpr
      (rooted.reached inode.id inode (linked.keyed.inode?_of_mem member))
    rw [describes.id] at missed
    simp [reached] at missed

end PocketShell.Snapshot
