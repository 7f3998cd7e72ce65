/-
What the operations on a tree of files leave where it was. Names are only
added when directories are made (`Grown`), so a path that led to something
still leads there. Opening and removing change what stands under one name,
and a path that leads to that name leads there before and after
(`resolve_elsewhere`).

A file that was opened for appending is found under its path, with what
could be read there before, or empty if it was removed first
(`shows_openTree`). Appending adds to it and changes no names
(`Shows.append`).
-/
import LogPipeline.Devices

namespace LogPipeline

namespace FileTree

variable {t t' t'' : FileTree} {path : String}

-- ============================================================ walking

/-- What a name leads to that is no directory on the way to others. -/
def placeAt (t : FileTree) (spot : List String) : FilePlace :=
  match t.nodes.get? (key spot) with
  | some node => .taken spot node
  | none => .free spot false

theorem placeAt_some {spot : List String} {node : FileNode}
    (h : t.nodes.get? (key spot) = some node) : t.placeAt spot = .taken spot node := by
  unfold placeAt
  rw [h]

theorem placeAt_none {spot : List String} (h : t.nodes.get? (key spot) = none) :
    t.placeAt spot = .free spot false := by
  unfold placeAt
  rw [h]

/-- The place is where the nodes of the tree have it. -/
def Has (t : FileTree) : FilePlace → Prop
  | .taken spot node => node = .directory ∨ t.nodes.get? (key spot) = some node
  | .free spot _ => t.nodes.get? (key spot) = none

theorem walk_last (t : FileTree) (here : List String) (node : FileNode) :
    t.walk here node [] = .ok (.taken here node) := by
  unfold walk
  rfl

/-- Only directories lead on. -/
theorem walk_stuck {here : List String} {node : FileNode} (hnode : node ≠ .directory)
    {name : String} {rest : List String} :
    t.walk here node (name :: rest) = .error .notDirectory := by
  cases node with
  | directory => exact absurd rfl hnode
  | file id => rfl
  | device d => rfl

/-- Walk on from a directory by a name that stands in it. -/
def lookUp (t : FileTree) (here : List String) (name : String) (rest : List String) :
    Except FileError FilePlace :=
  match t.nodes.get? (key (here ++ [name])) with
  | some node => t.walk (here ++ [name]) node rest
  | none =>
    if rest.all (· == "") then .ok (.free (here ++ [name]) !rest.isEmpty) else .error .noEntry

/-- What a name does to a walk is the same in every tree, as long as nothing
is looked up. -/
theorem walk_cons (here : List String) (name : String) (rest : List String) :
    (∃ here', ∀ t : FileTree, t.walk here .directory (name :: rest) = t.walk here' .directory rest)
      ∨ (∀ t : FileTree, t.walk here .directory (name :: rest) = .error .nameTooLong)
      ∨ ∀ t : FileTree, t.walk here .directory (name :: rest) = t.lookUp here name rest := by
  by_cases hskip : name = "" ∨ name = "."
  · refine .inl ⟨here, fun t => ?_⟩
    rw [walk, if_pos hskip]
  by_cases hup : name = ".."
  · refine .inl ⟨here.dropLast, fun t => ?_⟩
    rw [walk, if_neg hskip, if_pos hup]
  by_cases hlong : maxName < name.utf8ByteSize
  · refine .inr (.inl fun t => ?_)
    rw [walk, if_neg hskip, if_neg hup, if_pos hlong]
  · refine .inr (.inr fun t => ?_)
    rw [walk, if_neg hskip, if_neg hup, if_neg hlong]
    rfl

/-- A name that stands in the directory is walked on from. -/
theorem lookUp_some {here : List String} {name : String} {rest : List String} {node : FileNode}
    (h : t.nodes.get? (key (here ++ [name])) = some node) :
    t.lookUp here name rest = t.walk (here ++ [name]) node rest := by
  unfold lookUp
  rw [h]

/-- Where the name is missing there is a free place, if nothing but slashes
follows. -/
theorem lookUp_none {here : List String} {name : String} {rest : List String} {p : FilePlace}
    (h : t.nodes.get? (key (here ++ [name])) = none) (hok : t.lookUp here name rest = .ok p) :
    p = .free (here ++ [name]) !rest.isEmpty := by
  unfold lookUp at hok
  rw [h] at hok
  dsimp only at hok
  split at hok
  · cases hok
    rfl
  · cases hok

theorem lookUp_last (t : FileTree) (here : List String) (name : String) :
    t.lookUp here name [] = .ok (t.placeAt (here ++ [name])) := by
  cases h : t.nodes.get? (key (here ++ [name])) with
  | some node => rw [lookUp_some h, walk_last, placeAt_some h]
  | none =>
      rw [placeAt_none h]
      unfold lookUp
      rw [h]
      rfl

/-- What a walk from a place of the tree ends at is a place of the tree. -/
theorem has_walk {names here : List String} {node : FileNode} {p : FilePlace}
    (hnode : t.Has (.taken here node)) (h : t.walk here node names = .ok p) : t.Has p := by
  induction names generalizing here node with
  | nil =>
      cases h
      exact hnode
  | cons name rest ih =>
      by_cases hdir : node = .directory
      · subst hdir
        rcases walk_cons here name rest with ⟨here', hwalk⟩ | hwalk | hwalk
        · rw [hwalk] at h
          exact ih (.inl rfl) h
        · rw [hwalk] at h
          cases h
        · rw [hwalk] at h
          cases hnext : t.nodes.get? (key (here ++ [name])) with
          | some next =>
              rw [lookUp_some hnext] at h
              exact ih (.inr hnext) h
          | none =>
              rw [lookUp_none hnext h]
              exact hnext
      · rw [walk_stuck hdir] at h
        cases h

/-- A walk that ends at a name that is no directory goes by that name only
at its end. So if the trees differ under it only, the walk ends there in both. -/
theorem walk_elsewhere {spot : List String}
    (hsame : ∀ k ≠ key spot, t'.nodes.get? k = t.nodes.get? k)
    (hspot : t.nodes.get? (key spot) ≠ some .directory) {names here : List String}
    (h : t.walk here .directory names = .ok (t.placeAt spot)) :
    t'.walk here .directory names = .ok (t'.placeAt spot) := by
  induction names generalizing here with
  | nil =>
      rw [walk_last] at h
      refine absurd ?_ hspot
      unfold placeAt at h
      split at h
      · next node hnode =>
        cases h
        exact hnode
      · cases h
  | cons name rest ih =>
      rcases walk_cons here name rest with ⟨here', hwalk⟩ | hwalk | hwalk
      · rw [hwalk] at h ⊢
        exact ih h
      · rw [hwalk] at h
        cases h
      rw [hwalk] at h ⊢
      cases hnext : t.nodes.get? (key (here ++ [name])) with
      | none =>
          -- the walk ends here, so this is the place in question
          have hend := lookUp_none hnext h
          unfold placeAt at hend
          split at hend
          · cases hend
          · cases rest with
            | nil =>
                cases hend
                exact lookUp_last t' here name
            | cons name' rest' => cases hend
      | some next =>
          rw [lookUp_some hnext] at h
          by_cases hdir : next = .directory
          · subst hdir
            -- a directory on the way is not that place, and is still there
            have hother : key (here ++ [name]) ≠ key spot := fun hc => hspot (hc ▸ hnext)
            rw [lookUp_some ((hsame _ hother).trans hnext)]
            exact ih h
          · cases rest with
            | cons name' rest' =>
                rw [walk_stuck hdir] at h
                cases h
            | nil =>
                rw [walk_last] at h
                unfold placeAt at h
                split at h
                · cases h
                  exact lookUp_last t' here name
                · cases h

/-- Where there are more names, what was found is found. -/
theorem walk_grown (hstays : ∀ k node, t.nodes.get? k = some node → t'.nodes.get? k = some node)
    {names here spot : List String} {node node' : FileNode}
    (h : t.walk here node names = .ok (.taken spot node')) :
    t'.walk here node names = .ok (.taken spot node') := by
  induction names generalizing here node with
  | nil =>
      rw [walk_last] at h ⊢
      exact h
  | cons name rest ih =>
      by_cases hdir : node = .directory
      · subst hdir
        rcases walk_cons here name rest with ⟨here', hwalk⟩ | hwalk | hwalk
        · rw [hwalk] at h ⊢
          exact ih h
        · rw [hwalk] at h
          cases h
        · rw [hwalk] at h ⊢
          cases hnext : t.nodes.get? (key (here ++ [name])) with
          | some next =>
              rw [lookUp_some hnext] at h
              rw [lookUp_some (hstays _ _ hnext)]
              exact ih h
          | none => cases lookUp_none hnext h
      · rw [walk_stuck hdir] at h
        cases h

/-- A walk asks for names only. -/
theorem walk_of_nodes (hnodes : t'.nodes = t.nodes) (names here : List String) (node : FileNode) :
    t'.walk here node names = t.walk here node names := by
  induction names generalizing here node with
  | nil => rw [walk_last, walk_last]
  | cons name rest ih =>
      by_cases hdir : node = .directory
      · subst hdir
        rcases walk_cons here name rest with ⟨here', hwalk⟩ | hwalk | hwalk
        · rw [hwalk, hwalk, ih]
        · rw [hwalk, hwalk]
        · rw [hwalk, hwalk]
          unfold lookUp
          rw [hnodes]
          simp only [ih]
      · rw [walk_stuck hdir, walk_stuck hdir]

-- ============================================================== paths

/-- A path is refused in every tree, or it is walked from the same place in every tree. -/
theorem resolve_walks (path : String) :
    (∃ e, ∀ t : FileTree, t.resolve path = .error e)
      ∨ ∃ here names, ∀ t : FileTree, t.resolve path = t.walk here .directory names := by
  unfold resolve
  dsimp only
  split
  · exact .inl ⟨_, fun _ => rfl⟩
  split
  · exact .inl ⟨_, fun _ => rfl⟩
  split
  · exact .inl ⟨_, fun _ => rfl⟩
  split
  · exact .inr ⟨_, _, fun _ => rfl⟩
  · exact .inr ⟨_, _, fun _ => rfl⟩

/-- So what a path leads to is a place of the tree. -/
theorem has_resolve {p : FilePlace} (h : t.resolve path = .ok p) : t.Has p := by
  rcases resolve_walks path with ⟨e, hrefused⟩ | ⟨here, names, hwalks⟩
  · rw [hrefused] at h
    cases h
  · rw [hwalks] at h
    exact has_walk (.inl rfl) h

theorem resolve_elsewhere {spot : List String}
    (hsame : ∀ k ≠ key spot, t'.nodes.get? k = t.nodes.get? k)
    (hspot : t.nodes.get? (key spot) ≠ some .directory)
    (h : t.resolve path = .ok (t.placeAt spot)) : t'.resolve path = .ok (t'.placeAt spot) := by
  rcases resolve_walks path with ⟨e, hrefused⟩ | ⟨here, names, hwalks⟩
  · rw [hrefused] at h
    cases h
  · rw [hwalks] at h ⊢
    exact walk_elsewhere hsame hspot h

/-- Where a path leads depends on the names alone. -/
theorem resolve_of_nodes (hnodes : t'.nodes = t.nodes) (path : String) :
    t'.resolve path = t.resolve path := by
  rcases resolve_walks path with ⟨e, hrefused⟩ | ⟨here, names, hwalks⟩
  · rw [hrefused, hrefused]
  · rw [hwalks, hwalks, walk_of_nodes hnodes]

-- ============================================================ soundness

/-- Every name of a file leads to contents that are there. -/
def Sound (t : FileTree) : Prop :=
  ∀ k id, t.nodes.get? k = some (.file id) → id < t.contents.size

theorem sound_initial : initial.Sound := by
  intro k id hk
  have hmem : (k, FileNode.file id) ∈ initial.nodes.entries :=
    (Dict.mem_iff_lookup initial.nodes.sorted).2 hk
  have hentries : initial.nodes.entries = [("/dev", .directory), ("/dev/full", .device .full),
      ("/dev/null", .device .null), ("/work", .directory)] := rfl
  rw [hentries] at hmem
  simp at hmem

/-- The file that the path leads to, and what is in it. -/
structure Shows (t : FileTree) (path : String) (id : Nat) (bytes : ByteArray) : Prop where
  leads : ∃ spot, t.resolve path = .ok (.taken spot (.file id))
  contents : t.contents[id]? = some bytes

variable {id : Nat} {bytes : ByteArray}

/-- What a path shows can be read there. -/
theorem Shows.read_eq (h : t.Shows path id bytes) : t.read path = .ok bytes := by
  obtain ⟨spot, hspot⟩ := h.leads
  unfold read
  rw [hspot]
  show Except.ok (t.contents.getD id .empty) = _
  rw [Array.getD_eq_getD_getElem?, h.contents]
  rfl

/-- What is appended comes behind what is there. -/
theorem Shows.append (h : t.Shows path id bytes) (more : ByteArray) :
    (t.append more (.contents id)).2.Shows path id (bytes ++ more) := by
  refine ⟨?_, ?_⟩
  · obtain ⟨spot, hspot⟩ := h.leads
    have hnodes : (t.append more (.contents id)).2.nodes = t.nodes := rfl
    exact ⟨spot, (resolve_of_nodes hnodes path).trans hspot⟩
  · show (t.contents.modify id (· ++ more))[id]? = _
    rw [Array.getElem?_modify, if_pos rfl, h.contents]
    rfl

/-- A file that was appended to is still there. -/
theorem Sound.append (h : t.Sound) (more : ByteArray) :
    (t.append more (.contents id)).2.Sound := by
  intro k id' hk
  show id' < (t.contents.modify id (· ++ more)).size
  rw [Array.size_modify]
  exact h k id' hk

-- ========================================================= directories

/-- Nothing is new but names of directories. -/
structure Grown (t t' : FileTree) : Prop where
  contents : t'.contents = t.contents
  stays : ∀ k node, t.nodes.get? k = some node → t'.nodes.get? k = some node
  fresh : ∀ k node, t'.nodes.get? k = some node →
    t.nodes.get? k = some node ∨ node = .directory

theorem Grown.refl (t : FileTree) : t.Grown t := ⟨rfl, fun _ _ h => h, fun _ _ h => .inl h⟩

theorem Grown.trans (h : t.Grown t') (h' : t'.Grown t'') : t.Grown t'' where
  contents := h'.contents.trans h.contents
  stays k node hk := h'.stays k node (h.stays k node hk)
  fresh k node hk := (h'.fresh k node hk).elim (h.fresh k node) .inr

theorem Grown.sound (h : t.Grown t') (hs : t.Sound) : t'.Sound := by
  intro k id hk
  rcases h.fresh k _ hk with hold | hdir
  · exact h.contents ▸ hs k id hold
  · cases hdir

/-- What could be read can be read. -/
theorem Grown.read (h : t.Grown t') (hread : t.read path = .ok bytes) :
    t'.read path = .ok bytes := by
  unfold FileTree.read at hread ⊢
  rcases resolve_walks path with ⟨e, hrefused⟩ | ⟨here, names, hwalks⟩
  · rw [hrefused] at hread
    cases hread
  · rw [hwalks] at hread ⊢
    rcases hplace : t.walk here .directory names with e | ⟨spot, node⟩ | ⟨spot, asDirectory⟩
    · rw [hplace] at hread
      cases hread
    · rw [walk_grown h.stays hplace, h.contents]
      rw [hplace] at hread
      exact hread
    · rw [hplace] at hread
      cases hread

/-- Making a directory adds it, or nothing. -/
theorem grown_makeDirectory (t : FileTree) (path : String) :
    t.Grown (t.makeDirectory path).2 := by
  unfold makeDirectory
  split
  · exact .refl t
  · exact .refl t
  · next spot asDirectory hfree =>
    have hnone : t.nodes.get? (key spot) = none := has_resolve hfree
    refine ⟨rfl, fun k node hk => ?_, fun k node hk => ?_⟩
    · show (t.nodes.insert (key spot) .directory).get? k = _
      rw [Dict.get?_insert, if_neg fun hc => ?_, hk]
      rw [hc, hk] at hnone
      cases hnone
    · have hk' : (t.nodes.insert (key spot) .directory).get? k = some node := hk
      rw [Dict.get?_insert] at hk'
      split at hk'
      · exact .inr (Option.some.inj hk').symm
      · exact .inl hk'

theorem settleDirectory_tree (path : String) (made : Except FileError Unit × FileTree) :
    (settleDirectory path made).2 = made.2 := by
  unfold settleDirectory
  split
  · split <;> rfl
  · rfl

theorem grown_makeDirectoriesFor (fuel : Nat) (path : String) (t : FileTree) :
    t.Grown (makeDirectoriesFor fuel path t).2 := by
  induction fuel generalizing path t with
  | zero => exact .refl t
  | succ fuel ih =>
      unfold makeDirectoriesFor
      split
      · exact .refl t
      have hmade := grown_makeDirectory t path
      split
      · next t₁ heq =>
        rw [heq] at hmade
        split
        · exact hmade
        · next up hup =>
          have habove := hmade.trans (ih (String.ofList up) t₁)
          split
          · next e t₂ heq' =>
            rw [heq'] at habove
            exact habove
          · next t₂ heq' =>
            rw [heq'] at habove
            rw [settleDirectory_tree]
            exact habove.trans (grown_makeDirectory t₂ path)
      · rw [settleDirectory_tree]
        exact hmade

-- =============================================================== files

/-- A file that is created under a free name is found there, and is empty. -/
theorem shows_create {spot : List String} (hs : t.Sound)
    (hplace : t.resolve path = .ok (.free spot false)) :
    (t.create spot).2.Sound ∧ (t.create spot).2.Shows path t.contents.size .empty := by
  have hget : ∀ k, (t.create spot).2.nodes.get? k
      = if key spot = k then some (.file t.contents.size) else t.nodes.get? k :=
    fun k => Dict.get?_insert t.nodes (key spot) k _
  have hnone : t.nodes.get? (key spot) = none := has_resolve hplace
  refine ⟨fun k id hk => ?_, ⟨spot, ?_⟩, Array.getElem?_push_size⟩
  · show id < (t.contents.push .empty).size
    rw [Array.size_push]
    rw [hget] at hk
    split at hk
    · cases hk
      exact Nat.lt_succ_self _
    · exact Nat.lt_succ_of_lt (hs k id hk)
  · rw [← placeAt_some ((hget (key spot)).trans (if_pos rfl))]
    refine resolve_elsewhere (fun k hk => ?_) ?_
      (hplace.trans (congrArg _ (placeAt_none hnone).symm))
    · rw [hget, if_neg (Ne.symm hk)]
    · rw [hnone]
      nofun

/-- A file that is opened has what could be read before, and a new one has nothing. -/
theorem shows_openAppend (hs : t.Sound)
    (h : t.openAppend path = (.ok (.contents id), t')) :
    t'.Sound ∧ t'.Shows path id ((t.read path).toOption.getD .empty) := by
  unfold openAppend at h
  unfold read
  split at h
  · cases h
  · cases h
  · next spot id' hplace =>
    cases h
    have hlt : id < t.contents.size := by
      rcases has_resolve hplace with hdir | hnode
      · cases hdir
      · exact hs _ _ hnode
    rw [hplace]
    refine ⟨hs, ⟨spot, hplace⟩, ?_⟩
    show _ = some (t.contents.getD id .empty)
    rw [Array.getD_eq_getD_getElem?, Array.getElem?_eq_getElem hlt]
    rfl
  · cases h
  · next spot asDirectory hplace =>
    cases asDirectory with
    | true => cases h
    | false =>
        cases h
        rw [hplace]
        exact shows_create hs hplace

/-- What was removed cannot be read. -/
theorem read_unlink (h : t.unlink path = (.ok (), t')) : t'.read path = .error .noEntry := by
  unfold unlink at h
  split at h
  · cases h
  · cases h
  · cases h
  · next spot node hdir hplace =>
    cases h
    have hnode : t.nodes.get? (key spot) = some node := by
      rcases has_resolve hplace with rfl | hnode
      · exact absurd rfl hdir
      · exact hnode
    have hgone : (t.nodes.erase (key spot)).get? (key spot) = none := by
      rw [Dict.get?_erase, if_pos rfl]
    have hfree : FileTree.resolve { t with nodes := t.nodes.erase (key spot) } path
        = .ok (.free spot false) := by
      rw [← placeAt_none (t := { t with nodes := t.nodes.erase (key spot) }) hgone]
      refine resolve_elsewhere (fun k hk => ?_) ?_
        (hplace.trans (congrArg _ (placeAt_some hnode).symm))
      · show (t.nodes.erase (key spot)).get? k = _
        rw [Dict.get?_erase, if_neg (Ne.symm hk)]
      · rw [hnode]
        rintro ⟨rfl⟩
        exact hdir rfl
    unfold read
    rw [hfree]

/-- Removing a name leaves the files of the others where they are. -/
theorem Sound.unlink (hs : t.Sound) (path : String) : (t.unlink path).2.Sound := by
  unfold FileTree.unlink
  split
  · exact hs
  · exact hs
  · exact hs
  · next spot node hdir hplace =>
    intro k id hk
    have hk' : (t.nodes.erase (key spot)).get? k = some (.file id) := hk
    rw [Dict.get?_erase] at hk'
    split at hk'
    · cases hk'
    · exact hs k id hk'

end FileTree

-- ============================================================ log files

namespace Devices

open FileTree (Grown Sound Shows)

variable {t t' : FileTree} {path : String}

/-- Making the directories above a path only adds directories. -/
theorem grown_makeParent (path : String) (t : FileTree) : t.Grown (makeParent path t).2 := by
  unfold makeParent
  split
  · exact .refl t
  · exact .refl t
  · next up hname hparent =>
    have hgrown : t.Grown (t.makeDirectories (String.ofList up)).2 :=
      FileTree.grown_makeDirectoriesFor _ _ t
    dsimp only
    rcases hmade : t.makeDirectories (String.ofList up) with ⟨e | u, t₁⟩
    · rw [hmade] at hgrown
      exact hgrown
    · rw [hmade] at hgrown
      exact hgrown

/-- What a log file of the path starts with if nothing is removed: once its
directory is there, what can be read, and nothing if there is no file. -/
def found (path : String) (t : FileTree) : ByteArray :=
  ((makeParent path t).2.read path).toOption.getD .empty

/-- What can be read without more ado is found. -/
theorem found_of_read {bytes : ByteArray} (h : t.read path = .ok bytes) :
    found path t = bytes := by
  unfold found
  rw [(grown_makeParent path t).read h]
  rfl

/-- Once the old file was removed there is nothing to be read under its
path. -/
theorem removeOld_free (hs : t.Sound) (h : removeOld path t = (.ok (), t')) :
    t'.Sound ∧ t'.read path = .error .noEntry := by
  have hsound := hs.unlink path
  unfold removeOld at h
  split at h
  · next t₁ heq =>
    rw [heq] at hsound
    cases h
    exact ⟨hsound, FileTree.read_unlink heq⟩
  · next t₁ heq =>
    rw [heq] at hsound
    cases h
    refine ⟨hsound, ?_⟩
    unfold FileTree.unlink at heq
    unfold FileTree.read
    split at heq
    · next e hplace =>
      cases heq
      rw [hplace]
    · next hplace =>
      cases heq
      rw [hplace]
    · cases heq
    · cases heq
  · cases h

/-- A log file that was opened is found under its path: with what was found
there, or with nothing. -/
theorem shows_openTree {append : Bool} {id : Nat} (hs : t.Sound)
    (h : openTree path append t = (.ok (.contents id), t')) :
    t'.Sound ∧ t'.Shows path id (if append then found path t else .empty) := by
  have hsound := (grown_makeParent path t).sound hs
  have hopened : ∀ {t₁ : FileTree}, t₁.Sound → openTarget path t₁ = (.ok (.contents id), t') →
      t'.Sound ∧ t'.Shows path id ((t₁.read path).toOption.getD .empty) := by
    intro t₁ hs₁ hopen
    unfold openTarget at hopen
    split at hopen
    · next target t₂ heq =>
      cases hopen
      exact FileTree.shows_openAppend hs₁ heq
    · cases hopen
  unfold openTree at h
  unfold found
  split at h
  · cases h
  · next t₁ heq =>
    rw [heq] at hsound ⊢
    split at h
    · next happend =>
      rw [if_pos happend]
      exact hopened hsound h
    · next happend =>
      rw [if_neg happend]
      split at h
      · cases h
      · next t₂ heq' =>
        obtain ⟨hsound', hread⟩ := removeOld_free hsound heq'
        have := hopened hsound' h
        rw [hread] at this
        exact this

end Devices

end LogPipeline
