import Showreel.Console.Run
import Showreel.Proofs.Script.Tokens

/-!
Contract: a run on files in memory.

Owns:
- that a path leads to the same place whatever files are written, and what one change of a file
  does to it and to every other file;
- that a text that is written is read back, and that a change with an obstacle changes nothing;
- that the files of which a tree is made are read;
- the log of a run: reading its file without the times gives the entries that the level lets
  through;
- that the settings of a file are those that its text gives, and that asking for them changes no
  file.

Does not own: files on a disk.
-/

namespace Showreel

open Storage

namespace Storage

/-- The bytes of a text spell this text and no other. -/
theorem fromUTF8?_eq_some_iff {bytes : ByteArray} {text : String} :
    String.fromUTF8? bytes = some text ↔ bytes = text.toUTF8 := by
  unfold String.fromUTF8?
  constructor
  · intro spelt
    split at spelt
    · cases spelt
      rfl
    · cases spelt
  · rintro rfl
    exact dif_pos text.isValidUTF8

theorem toUTF8_append (text more : String) :
    (text ++ more).toUTF8 = text.toUTF8 ++ more.toUTF8 :=
  String.toByteArray_append

namespace Tree

variable {tree changed : Tree} {path : Path} {place : Place}

/-! ### Places -/

theorem hasFolder_congr (folders : changed.folders = tree.folders) (place : Place) :
    changed.hasFolder place = tree.hasFolder place := by
  unfold hasFolder
  rw [folders]

theorem origin_congr (here : changed.here = tree.here) (path : Path) :
    changed.origin path = tree.origin path := by
  unfold origin
  rw [here]

/-- Where names lead is settled by the folders. -/
theorem follow_of_folders (folders : changed.folders = tree.folders) {names : List String}
    {start : Place} (found : tree.follow start names = .ok place) :
    changed.follow start names = .ok place := by
  induction names generalizing start with
  | nil => exact found
  | cons name rest inductionHypothesis =>
      unfold follow at found ⊢
      dsimp only at found ⊢
      rw [hasFolder_congr folders]
      split at found
      · rename_i up
        rw [if_pos up]
        exact inductionHypothesis found
      · rename_i down
        rw [if_neg down]
        split at found
        · cases found
        · rename_i short
          rw [if_neg short]
          split at found
          · rename_i last
            rw [if_pos last]
            exact found
          · rename_i further
            rw [if_neg further]
            split at found
            · rename_i folder
              rw [if_pos folder]
              exact inductionHypothesis found
            · split at found <;> cases found

theorem locate_of_folders (folders : changed.folders = tree.folders)
    (here : changed.here = tree.here) (found : tree.locate path = .ok place) :
    changed.locate path = .ok place := by
  unfold locate at found ⊢
  rw [origin_congr here]
  split at found
  · cases found
  · exact follow_of_folders folders found

/-! ### One change of a file -/

/-- The tree with other bytes at a place. -/
def storing (tree : Tree) (place : Place) (bytes : ByteArray) : Tree :=
  { tree with files := (place, bytes) :: tree.files.filter fun file => file.1 != place }

theorem lookup_storing (tree : Tree) (place other : Place) (bytes : ByteArray) :
    (tree.storing place bytes).files.lookup other
      = if other = place then some bytes else tree.files.lookup other := by
  unfold storing
  rw [List.lookup_cons]
  by_cases same : other = place
  · rw [if_pos same, beq_iff_eq.mpr same]
  · rw [if_neg same, beq_eq_false_iff_ne.mpr same]
    dsimp only
    induction tree.files with
    | nil => rfl
    | cons file rest inductionHypothesis =>
        rw [List.filter_cons, List.lookup_cons]
        by_cases kept : file.1 = place
        · have passes : (other == file.1) = false := beq_eq_false_iff_ne.mpr (kept ▸ same)
          rw [if_neg (by simp [kept]), inductionHypothesis, passes]
        · rw [if_pos (by simp [kept]), List.lookup_cons, inductionHypothesis]

/-- A file is changed where its path leads to no folder; a sink stays as it is. -/
theorem change_eq_ok {edit : ByteArray → ByteArray} (done : tree.change path edit = .ok changed) :
    ∃ place, tree.locate path = .ok place ∧ tree.hasFolder place = false
      ∧ changed = if tree.sinks.contains place then tree
        else tree.storing place (edit ((tree.files.lookup place).getD ByteArray.empty)) := by
  unfold change at done
  cases located : tree.locate path with
  | error obstacle =>
      rw [located] at done
      cases done
  | ok place =>
      rw [located] at done
      dsimp only [bind, Except.bind] at done
      cases folder : tree.hasFolder place with
      | true =>
          rw [folder] at done
          cases done
      | false =>
          rw [folder] at done
          refine ⟨place, rfl, folder, ?_⟩
          cases sink : tree.sinks.contains place <;> rw [sink] at done <;> cases done <;> rfl

/-- What a place holds, as a text. -/
def textAt (tree : Tree) (place : Place) : Except Obstacle String :=
  if tree.hasFolder place then .error .isFolder
  else if tree.sinks.contains place then .ok ""
  else
    match tree.files.lookup place with
    | none => .error .missing
    | some bytes =>
        match String.fromUTF8? bytes with
        | some text => .ok text
        | none => .error .notText

theorem textAt_eq_ok_iff (folder : tree.hasFolder place = false)
    (kept : tree.sinks.contains place = false) {text : String} :
    tree.textAt place = .ok text ↔ tree.files.lookup place = some text.toUTF8 := by
  unfold textAt
  rw [folder, kept, if_neg Bool.false_ne_true, if_neg Bool.false_ne_true]
  cases tree.files.lookup place with
  | none => simp
  | some bytes =>
      rw [Option.some_inj, ← fromUTF8?_eq_some_iff]
      dsimp only
      cases String.fromUTF8? bytes <;> simp

theorem read_eq (located : tree.locate path = .ok place) : tree.read path = tree.textAt place := by
  unfold read textAt
  rw [located]
  dsimp only [bind, Except.bind]
  cases tree.hasFolder place with
  | true => rfl
  | false =>
      cases tree.sinks.contains place with
      | true => rfl
      | false => cases tree.files.lookup place <;> rfl

/-- **A file that is changed holds its new bytes, and every other place what it held.** -/
theorem textAt_storing (tree : Tree) (place other : Place) {text : String} :
    (tree.storing place text.toUTF8).textAt other
      = if other = place ∧ tree.hasFolder place = false ∧ tree.sinks.contains place = false
        then .ok text else tree.textAt other := by
  have folder : (tree.storing place text.toUTF8).hasFolder other = tree.hasFolder other := rfl
  have sink : (tree.storing place text.toUTF8).sinks = tree.sinks := rfl
  unfold textAt
  rw [folder, sink, lookup_storing]
  by_cases same : other = place
  · subst same
    rw [if_pos rfl]
    dsimp only
    rw [fromUTF8?_eq_some_iff.mpr rfl]
    cases tree.hasFolder other with
    | true => simp
    | false => cases tree.sinks.contains other <;> simp
  · simp only [same, if_false, false_and]

/-- A path that leads to a place still does after a change of any file. -/
theorem locate_storing (bytes : ByteArray) {other : Path} {elsewhere : Place}
    (located : tree.locate other = .ok elsewhere) :
    (tree.storing place bytes).locate other = .ok elsewhere := by
  have folders : (tree.storing place bytes).folders = tree.folders := rfl
  have here : (tree.storing place bytes).here = tree.here := rfl
  exact locate_of_folders folders here located

/-! ### Access -/

theorem run_attempt (edit : Tree → Except Obstacle Tree) (tree : Tree) :
    (attempt edit).run tree =
      match edit tree with
      | .ok changed => (.ok (), changed)
      | .error obstacle => (.error obstacle, tree) := by
  unfold attempt
  simp only [StateT.run_bind, StateT.run_get, pure_bind]
  cases edit tree <;> rfl

theorem run_read (path : Path) (tree : Tree) :
    (access.read path).run tree = (tree.read path, tree) :=
  rfl

theorem run_home (name : String) (tree : Tree) :
    (access.home name).run tree = (tree.homes.lookup name, tree) :=
  rfl

theorem read?_eq_some {text : String} (reads : tree.read path = .ok text) :
    tree.read? path = .ok (some text) := by
  unfold read?
  rw [reads]
  rfl

/-- **A text that is written is read back**, unless it goes to a sink, and every other file reads as
before. Where the text cannot be written nothing changes. -/
theorem run_write (path : Path) (text : String) (tree : Tree) :
    match (access.write path text).run tree with
    | (.error _, after) => after = tree
    | (.ok (), after) => ∃ place, tree.locate path = .ok place
        ∧ (tree.sinks.contains place = false → after.read? path = .ok (some text))
        ∧ ∀ other elsewhere, tree.locate other = .ok elsewhere → elsewhere ≠ place →
          after.read other = tree.read other := by
  have ran := run_attempt (fun tree => tree.change path fun _ => text.toUTF8) tree
  change match (attempt fun tree => tree.change path fun _ => text.toUTF8).run tree with
    | (.error _, after) => _
    | (.ok (), after) => _
  rw [ran]
  cases done : tree.change path fun _ => text.toUTF8 with
  | error obstacle => rfl
  | ok changed =>
      obtain ⟨place, located, folder, rfl⟩ := change_eq_ok done
      refine ⟨place, located, fun kept => read?_eq_some ?_, fun other elsewhere there apart => ?_⟩
      · rw [kept, if_neg Bool.false_ne_true, read_eq (locate_storing _ located), textAt_storing,
          if_pos ⟨rfl, folder, kept⟩]
      · split
        · rfl
        · rw [read_eq (locate_storing _ there), read_eq there, textAt_storing,
            if_neg fun both => apart both.1]

/-! ### Folders on the way -/

/-- Whether names lead through folders alone. -/
def Passes (tree : Tree) (start : Place) : List String → Prop
  | [] => True
  | name :: rest =>
      if name = ".." then tree.Passes start.dropLast rest
      else name.utf8ByteSize ≤ Path.partLimit ∧ tree.hasFolder (start ++ [name]) = true
        ∧ tree.Passes (start ++ [name]) rest

theorem Passes.congr (folders : changed.folders = tree.folders) {names : List String}
    {start : Place} (passes : tree.Passes start names) : changed.Passes start names := by
  induction names generalizing start with
  | nil => trivial
  | cons name rest inductionHypothesis =>
      unfold Passes at passes ⊢
      split at passes
      · rename_i up
        rw [if_pos up]
        exact inductionHypothesis passes
      · rename_i down
        rw [if_neg down]
        obtain ⟨short, folder, further⟩ := passes
        exact ⟨short, (hasFolder_congr folders _).trans folder, inductionHypothesis further⟩

/-- Where all folders are there, none is made. -/
theorem makeFolders_of_passes {names : List String} {start : Place}
    (passes : tree.Passes start names) : tree.makeFolders start names = (tree, none) := by
  induction names generalizing start with
  | nil => rfl
  | cons name rest inductionHypothesis =>
      unfold Passes at passes
      unfold makeFolders
      split at passes
      · rename_i up
        rw [if_pos up]
        exact inductionHypothesis passes
      · rename_i down
        obtain ⟨short, folder, further⟩ := passes
        rw [if_neg down, if_neg (Nat.not_lt.mpr short)]
        dsimp only
        rw [if_pos folder]
        exact inductionHypothesis further

/-- Making folders adds folders to a tree and changes nothing else. -/
structure Grows (before after : Tree) : Prop where
  folders : ∀ place ∈ before.folders, place ∈ after.folders
  same : after = { before with folders := after.folders }

theorem Grows.trans {first second third : Tree} (earlier : Grows first second)
    (later : Grows second third) : Grows first third where
  folders place member := later.folders place (earlier.folders place member)
  same := by rw [later.same, earlier.same]

theorem grows_makeFolders (tree : Tree) (start : Place) (names : List String) :
    tree.Grows (tree.makeFolders start names).1 := by
  induction names generalizing tree start with
  | nil => exact ⟨fun _ => id, rfl⟩
  | cons name rest inductionHypothesis =>
      unfold makeFolders
      dsimp only
      split
      · exact inductionHypothesis tree start.dropLast
      · split
        · exact ⟨fun _ => id, rfl⟩
        · split
          · exact inductionHypothesis tree _
          · split
            · exact ⟨fun _ => id, rfl⟩
            · have added : tree.Grows { tree with folders := (start ++ [name]) :: tree.folders } :=
                ⟨fun _ => List.mem_cons_of_mem _, rfl⟩
              exact added.trans (inductionHypothesis _ _)

theorem Grows.hasFolder {before after : Tree} (grows : before.Grows after) {place : Place}
    (folder : before.hasFolder place = true) : after.hasFolder place = true := by
  unfold Tree.hasFolder at folder ⊢
  simp only [Bool.or_eq_true, List.contains_iff_mem] at folder ⊢
  exact folder.imp_right (grows.folders place)

/-- Where nothing was in the way, the names lead through folders then. -/
theorem passes_makeFolders {names : List String} {start : Place}
    (made : tree.makeFolders start names = (changed, none)) : changed.Passes start names := by
  induction names generalizing tree start with
  | nil => trivial
  | cons name rest inductionHypothesis =>
      unfold makeFolders at made
      unfold Passes
      split at made
      · rename_i up
        rw [if_pos up]
        exact inductionHypothesis made
      · rename_i down
        rw [if_neg down]
        split at made
        · cases made
        · rename_i short
          dsimp only at made
          split at made
          · rename_i folder
            have grows := grows_makeFolders tree (start ++ [name]) rest
            rw [made] at grows
            exact ⟨Nat.not_lt.mp short, grows.hasFolder folder, inductionHypothesis made⟩
          · split at made
            · cases made
            · have grows := grows_makeFolders
                { tree with folders := (start ++ [name]) :: tree.folders } (start ++ [name]) rest
              rw [made] at grows
              refine ⟨Nat.not_lt.mp short, grows.hasFolder ?_, inductionHypothesis made⟩
              simp [Tree.hasFolder]

/-! ### A file that grows -/

/-- A file with a text, to which more can be added. -/
structure Holds (tree : Tree) (path : Path) (place : Place) (text : String) : Prop where
  sound : path.folder.defect? = none
  passes : tree.Passes (tree.origin path.folder) path.folder.parts
  located : tree.locate path = .ok place
  folder : tree.hasFolder place = false
  kept : tree.sinks.contains place = false
  bytes : tree.files.lookup place = some text.toUTF8

theorem Holds.reads {text : String} (holds : tree.Holds path place text) :
    tree.read path = .ok text := by
  rw [read_eq holds.located, textAt_eq_ok_iff holds.folder holds.kept]
  exact holds.bytes

theorem run_append (path : Path) (more : String) (tree : Tree) :
    (access.append path more).run tree =
      match path.folder.defect?, tree.makeFolders (tree.origin path.folder) path.folder.parts with
      | some obstacle, _ => (.error obstacle, tree)
      | none, (made, some obstacle) => (.error obstacle, made)
      | none, (made, none) =>
          match made.change path (· ++ more.toUTF8) with
          | .ok changed => (.ok (), changed)
          | .error obstacle => (.error obstacle, made) := by
  unfold access prepare
  dsimp only
  rw [StateT.run_bind]
  cases path.folder.defect? with
  | some obstacle => rfl
  | none =>
      simp only [StateT.run_bind, StateT.run_get, pure_bind]
      rcases tree.makeFolders (tree.origin path.folder) path.folder.parts with ⟨made, _ | obstacle⟩
      · exact run_attempt _ made
      · rfl

/-- What is added to a file stands behind what it held. -/
theorem Holds.append {text : String} (holds : tree.Holds path place text) (more : String) :
    ∃ changed, (access.append path more).run tree = (.ok (), changed)
      ∧ changed.Holds path place (text ++ more) := by
  have folders : (tree.storing place (text ++ more).toUTF8).folders = tree.folders := rfl
  refine ⟨tree.storing place (text ++ more).toUTF8, ?_, holds.sound, holds.passes.congr folders,
    locate_storing _ holds.located, holds.folder, holds.kept,
    (lookup_storing ..).trans (if_pos rfl)⟩
  rw [run_append, holds.sound, makeFolders_of_passes holds.passes]
  dsimp only
  have changed : tree.change path (· ++ more.toUTF8)
      = .ok (tree.storing place (text ++ more).toUTF8) := by
    unfold change
    rw [holds.located]
    dsimp only [bind, Except.bind]
    rw [holds.folder, holds.kept, holds.bytes, toUTF8_append]
    rfl
  rw [changed]

/-- A file that was changed and reads as a text holds it. -/
theorem Holds.of_change {edit : ByteArray → ByteArray} {text : String}
    (sound : path.folder.defect? = none)
    (passes : tree.Passes (tree.origin path.folder) path.folder.parts)
    (done : tree.change path edit = .ok changed) (located : changed.locate path = .ok place)
    (kept : changed.sinks.contains place = false) (reads : changed.read path = .ok text) :
    changed.Holds path place text := by
  obtain ⟨there, locatedThere, folder, same⟩ := change_eq_ok done
  obtain ⟨folders, here⟩ : changed.folders = tree.folders ∧ changed.here = tree.here := by
    rw [same]
    split <;> exact ⟨rfl, rfl⟩
  have samePlace := (locate_of_folders folders here locatedThere).symm.trans located
  obtain rfl : there = place := Except.ok.inj samePlace
  have noFolder : changed.hasFolder there = false := (hasFolder_congr folders there).trans folder
  have origin := origin_congr here path.folder
  refine ⟨sound, origin ▸ passes.congr folders, located, noFolder, kept, ?_⟩
  rwa [read_eq located, textAt_eq_ok_iff noFolder kept] at reads

/-- A text that was added to a file leaves one to which more can be added. -/
theorem holds_of_append {more text : String} {place : Place}
    (added : (access.append path more).run tree = (.ok (), changed))
    (located : changed.locate path = .ok place) (kept : changed.sinks.contains place = false)
    (reads : changed.read path = .ok text) : changed.Holds path place text := by
  rw [run_append] at added
  cases sound : path.folder.defect? with
  | some obstacle =>
      rw [sound] at added
      cases added
  | none =>
      have grows := grows_makeFolders tree (tree.origin path.folder) path.folder.parts
      rw [sound] at added
      rcases made : tree.makeFolders (tree.origin path.folder) path.folder.parts with
        ⟨between, _ | obstacle⟩
      · rw [made] at added grows
        dsimp only at added grows
        have here : between.here = tree.here := by
          rw [grows.same]
        have origin := origin_congr here path.folder
        have passes := passes_makeFolders made
        cases done : between.change path (· ++ more.toUTF8) with
        | error obstacle =>
            rw [done] at added
            cases added
        | ok other =>
            rw [done] at added
            cases added
            exact .of_change sound (origin ▸ passes) done located kept reads
      · rw [made] at added
        cases added

/-! ### The files that are given -/

/-- A name that leads to a file in the folder where a program is run. -/
structure IsFileName (name : String) : Prop where
  some : name.toList ≠ []
  noSlash : ∀ char ∈ name.toList, (char == '/') = false
  noDot : name ≠ "."
  noUp : name ≠ ".."
  noZero : Path.holdsZero name = false
  short : name.utf8ByteSize ≤ Path.partLimit

theorem IsFileName.ofText {name : String} (sound : IsFileName name) :
    Path.ofText name = ⟨"", [name]⟩ := by
  have root : Path.rootOf name.toList = "" := by
    cases spelt : name.toList with
    | nil => exact absurd spelt sound.some
    | cons first rest =>
        have apart := sound.noSlash first (spelt ▸ List.mem_cons_self)
        rw [beq_eq_false_iff_ne] at apart
        simp [Path.rootOf, apart]
  have pieces : Text.splitPieces (· == '/') [] name.toList = [name.toList] := by
    have whole := Script.splitPieces_token sound.noSlash [] []
    have closed : Text.splitPieces (· == '/') name.toList.reverse []
        = [name.toList.reverse.reverse] :=
      Script.splitPieces_close (mt List.reverse_eq_nil_iff.mp sound.some) nofun
    rw [List.append_nil, List.append_nil] at whole
    rw [whole, closed, List.reverse_reverse]
  unfold Path.ofText
  rw [root, pieces]
  simp [sound.noDot]

/-- A name leads to a file in the folder where a program is run. -/
theorem IsFileName.locate {name : String} (sound : IsFileName name) (tree : Tree) :
    tree.locate (Path.ofText name) = .ok (tree.here ++ [name]) := by
  have text : (⟨"", [name]⟩ : Path).text = name := by
    simp [Path.text]
  have free : (⟨"", [name]⟩ : Path).defect? = none := by
    have below : ¬Path.lengthLimit ≤ name.utf8ByteSize := by
      have short := sound.short
      unfold Path.partLimit at short
      unfold Path.lengthLimit
      omega
    unfold Path.defect?
    rw [text, sound.noZero, if_neg Bool.false_ne_true, if_neg below]
  unfold Tree.locate Tree.origin
  rw [sound.ofText, free]
  dsimp only
  unfold follow
  rw [if_neg sound.noUp, if_neg (Nat.not_lt.mpr sound.short)]
  rfl

/-- The place of a file that is given. -/
theorem lookup_placed {files : List (String × String)} (named : ∀ file ∈ files, IsFileName file.1)
    (here : Place) (name : String) :
    (files.map fun (name, text) =>
        (here ++ (Path.ofText name).parts, text.toUTF8)).lookup (here ++ [name])
      = (files.lookup name).map String.toUTF8 := by
  induction files with
  | nil => rfl
  | cons file rest inductionHypothesis =>
      rw [List.forall_mem_cons] at named
      rw [List.map_cons, List.lookup_cons, List.lookup_cons, named.1.ofText,
        inductionHypothesis named.2]
      have same : (here ++ [name] == here ++ [file.1]) = (name == file.1) := by
        rw [Bool.eq_iff_iff, beq_iff_eq, beq_iff_eq, List.append_cancel_left_eq, List.cons_eq_cons]
        simp
      rw [same]
      cases name == file.1 <;> rfl

/-- Folders have fewer parts than the places of files that are given. -/
theorem length_folders_ofFiles {files : List (String × String)}
    (named : ∀ file ∈ files, IsFileName file.1) :
    ∀ folder ∈ (ofFiles files).folders, folder.length ≤ 2 := by
  intro folder member
  rcases List.mem_append.mp member with standard | placed
  · exact (by decide : ∀ folder ∈ standardFolders, folder.length ≤ 2) folder standard
  · obtain ⟨placed, listed, among⟩ := List.mem_flatMap.mp placed
    obtain ⟨file, given, rfl⟩ := List.mem_map.mp listed
    obtain ⟨count, below, rfl⟩ := List.mem_map.mp among
    rw [List.mem_range] at below
    rw [List.length_take]
    simp only [(named file given).ofText, List.length_append, List.length_cons,
      List.length_nil] at below ⊢
    omega

/-- **The files that a tree is made of are read**, each by its name. -/
theorem read_ofFiles {files : List (String × String)} (named : ∀ file ∈ files, IsFileName file.1)
    {name text : String} (given : files.lookup name = some text) :
    (ofFiles files).read (Path.ofText name) = .ok text := by
  have sound : IsFileName name := by
    obtain ⟨earlier, later, split, -⟩ := List.lookup_eq_some_iff.mp given
    exact named (name, text) (split ▸ List.mem_append_right _ List.mem_cons_self)
  have bytes : (ofFiles files).files.lookup (["tmp", "run"] ++ [name]) = some text.toUTF8 := by
    have placed := lookup_placed named ["tmp", "run"] name
    rw [given] at placed
    exact placed
  have noFolder : (ofFiles files).hasFolder (["tmp", "run"] ++ [name]) = false := by
    refine Bool.eq_false_iff.mpr fun folder => ?_
    have member : ["tmp", "run", name] ∈ (ofFiles files).folders := by
      simpa [hasFolder] using folder
    have short := length_folders_ofFiles named _ member
    simp at short
  have kept : (ofFiles files).sinks.contains (["tmp", "run"] ++ [name]) = false := rfl
  rw [read_eq (sound.locate _)]
  exact (textAt_eq_ok_iff noFolder kept).mpr bytes

end Tree

end Storage

/-! ### The log -/

namespace Console

open Tree

section Runs

variable {β γ : Type} {next : β → ExceptT Fault (StateM Tree) γ} {tree after : Tree}

theorem run_answered {first : ExceptT Fault (StateM Tree) β} {value : β}
    (ran : first.run.run tree = (.ok value, after)) :
    (first >>= next).run.run tree = (next value).run.run after := by
  rw [ExceptT.run_bind, StateT.run_bind, ran]
  rfl

theorem run_failed {first : ExceptT Fault (StateM Tree) β} {fault : Fault}
    (ran : first.run.run tree = (.error fault, after)) :
    (first >>= next).run.run tree = (.error fault, after) := by
  rw [ExceptT.run_bind, StateT.run_bind, ran]
  rfl

/-- An access in a run: the run goes on with what it gives and leaves. -/
theorem run_access (request : StateM Tree β) (tree : Tree) :
    ((liftM request : ExceptT Fault (StateM Tree) β) >>= next).run.run tree
      = (next (request.run tree).1).run.run (request.run tree).2 :=
  rfl

end Runs

namespace LogBook

/-- The line of an entry in a log in memory. -/
def line (entry : LogEntry) : String :=
  standingTime ++ " - " ++ entry.text

/-- The entries that a level lets through. -/
def passed (level : LogLevel) (entries : List LogEntry) : List LogEntry :=
  entries.filter fun entry => level.number ≤ entry.level.number

/-- What entries add to a log of a level. -/
def added (level : LogLevel) (entries : List LogEntry) : String :=
  String.join (((passed level entries).map line).map (· ++ "\n"))

theorem withoutTime_line (entry : LogEntry) : withoutTime (line entry) = entry.text := by
  have spelt : (line entry).toList = (standingTime ++ " - ").toList ++ entry.text.toList := by
    rw [line, String.toList_append]
  have long : (standingTime ++ " - ").toList.length = timeShape.length := by decide
  have timed : (((standingTime ++ " - ").toList.zip timeShape).all fun place =>
      if place.2 == '0' then Text.isDigit place.1 else place.1 == place.2) = true := by
    decide
  unfold withoutTime
  rw [spelt]
  dsimp only
  rw [List.take_left' long, List.drop_left' long, long, beq_self_eq_true, Bool.true_and]
  exact (if_pos timed).trans String.ofList_toList

/-- Lines that were joined are the pieces between the line feeds. -/
theorem splitPieces_join {lines : List String}
    (sound : ∀ line ∈ lines, line.toList ≠ [] ∧ '\n' ∉ line.toList) :
    Text.splitPieces (· == '\n') [] (String.join (lines.map (· ++ "\n"))).toList
      = lines.map String.toList := by
  induction lines with
  | nil => rfl
  | cons line rest inductionHypothesis =>
      rw [List.forall_mem_cons] at sound
      obtain ⟨⟨some, single⟩, soundRest⟩ := sound
      have unbroken : ∀ char ∈ line.toList, (char == '\n') = false := by
        rintro char member
        rw [beq_eq_false_iff_ne]
        rintro rfl
        exact single member
      rw [List.map_cons, String.join_cons, String.toList_append, String.toList_append,
        List.append_assoc, Script.splitPieces_token unbroken, List.append_nil]
      have feed : "\n".toList = ['\n'] := by decide
      rw [feed]
      generalize (String.join (rest.map (· ++ "\n"))).toList = joined at inductionHypothesis ⊢
      rw [Script.splitPieces_close (mt List.reverse_eq_nil_iff.mp some) (by simp),
        List.reverse_reverse, Script.splitPieces_gap (by simp), inductionHypothesis soundRest,
        List.map_cons]

/-- **A log without its times is its entries**, one to a line. -/
theorem untimedLines_added (level : LogLevel) {entries : List LogEntry}
    (single : ∀ entry ∈ entries, '\n' ∉ entry.text.toList) :
    untimedLines (added level entries) = (passed level entries).map LogEntry.text := by
  have sound : ∀ text ∈ (passed level entries).map line, text.toList ≠ [] ∧ '\n' ∉ text.toList := by
    intro text member
    obtain ⟨entry, among, rfl⟩ := List.mem_map.mp member
    have stamp : (standingTime ++ " - ").toList ≠ [] ∧ '\n' ∉ (standingTime ++ " - ").toList := by
      decide
    rw [line, String.toList_append]
    refine ⟨fun nothing => stamp.1 (List.append_eq_nil_iff.mp nothing).1, fun feed => ?_⟩
    rcases List.mem_append.mp feed with early | late
    · exact stamp.2 early
    · exact single entry (List.mem_of_mem_filter among) late
  unfold untimedLines added
  rw [splitPieces_join sound, List.map_map, List.map_map]
  refine List.map_congr_left fun entry _ => ?_
  simp only [Function.comp_apply]
  rw [String.ofList_toList, withoutTime_line]

/-- One entry adds its line to the file of the log, if the level lets it through. -/
theorem run_enter {tree : Tree} {path : Path} {place : Place} {text : String}
    (holds : tree.Holds path place text) (level : LogLevel) (entry : LogEntry) :
    ∃ changed, (enter access ⟨level, some path⟩ entry).run.run tree = (.ok (), changed)
      ∧ changed.Holds path place (text ++ added level [entry]) := by
  by_cases passes : level.number ≤ entry.level.number
  · obtain ⟨changed, ran, holdsMore⟩ := holds.append (line entry ++ "\n")
    have one : added level [entry] = line entry ++ "\n" := by
      simp [added, passed, passes]
    refine ⟨changed, ?_, one ▸ holdsMore⟩
    unfold enter
    rw [if_pos passes, run_access]
    dsimp only
    rw [run_access, run_access]
    exact congrArg (fun answer => (Except.ok (), answer.2)) ran
  · have none : added level [entry] = "" := by
      simp [added, passed, passes]
    refine ⟨tree, ?_, ?_⟩
    · unfold enter
      rw [if_neg passes]
      rfl
    · rwa [none, String.append_empty]

/-- **Entering entries adds what the level lets through**, in order. -/
theorem run_enterAll {tree : Tree} {path : Path} {place : Place} {text : String}
    (holds : tree.Holds path place text) (level : LogLevel) (entries : List LogEntry) :
    ∃ changed, (entries.forM (enter access ⟨level, some path⟩)).run.run tree = (.ok (), changed)
      ∧ changed.Holds path place (text ++ added level entries) := by
  induction entries generalizing tree text with
  | nil => exact ⟨tree, rfl, by rwa [show added level [] = "" from rfl, String.append_empty]⟩
  | cons entry rest inductionHypothesis =>
      obtain ⟨between, entered, holdsOne⟩ := run_enter holds level entry
      obtain ⟨changed, enteredRest, holdsAll⟩ := inductionHypothesis holdsOne
      refine ⟨changed, ?_, ?_⟩
      · exact (run_answered entered).trans enteredRest
      · have joined : added level (entry :: rest) = added level [entry] ++ added level rest := by
          have apart : entry :: rest = [entry] ++ rest := rfl
          rw [apart, added, passed, List.filter_append, List.map_append, List.map_append,
            String.join_append]
          rfl
        rwa [joined, ← String.append_assoc]

/-- Looking for a home changes no file. -/
theorem run_atHome (path : Path) (tree : Tree) :
    ((atHome access path).run.run tree).2 = tree := by
  unfold atHome
  split
  · rfl
  · rename_i name rest _
    split
    · rfl
    · rw [run_access, run_home]
      cases tree.homes.lookup name <;> rfl

/-- The file of a log is opened by adding nothing to it. -/
theorem append_of_openAt {tree opened : Tree} {given path : Path} {level : LogLevel}
    (opens : (openAt access level (some given)).run.run tree = (.ok ⟨level, some path⟩, opened)) :
    (access.append path "").run tree = (.ok (), opened) := by
  unfold openAt at opens
  dsimp only at opens
  have unmoved := run_atHome given tree
  rcases home : (atHome access given).run.run tree with ⟨answer, between⟩
  rw [home] at unmoved
  subst unmoved
  cases answer with
  | error fault =>
      rw [run_failed home] at opens
      cases opens
  | ok place =>
      rw [run_answered home, run_access] at opens
      rcases ran : (access.append place "").run between with ⟨added, after⟩
      rw [ran] at opens
      cases added with
      | ok done =>
          cases opens
          exact ran
      | error obstacle => cases obstacle <;> cases opens

/-- **The log of a run.** Where a file for the log has been opened, is no sink and begins empty, the
entries that are made leave a text from which the lines without their times are the entries that the
level lets through, in order. -/
theorem untimedLines_entered {tree opened : Tree} {given path : Path} {place : Place}
    {level : LogLevel}
    (opens : (openAt access level (some given)).run.run tree = (.ok ⟨level, some path⟩, opened))
    (located : opened.locate path = .ok place) (kept : opened.sinks.contains place = false)
    (fresh : opened.read path = .ok "") {entries : List LogEntry}
    (single : ∀ entry ∈ entries, '\n' ∉ entry.text.toList) :
    ∃ logged text, (entries.forM (enter access ⟨level, some path⟩)).run.run opened
        = (.ok (), logged)
      ∧ logged.read path = .ok text
      ∧ untimedLines text = (passed level entries).map LogEntry.text := by
  have holds : opened.Holds path place "" :=
    holds_of_append (append_of_openAt opens) located kept fresh
  obtain ⟨logged, entered, holdsAll⟩ := run_enterAll holds level entries
  rw [String.empty_append] at holdsAll
  exact ⟨logged, _, entered, holdsAll.reads, untimedLines_added level single⟩

/-- A log beside the other files of a run. -/
example :
    let log := Path.ofText "run.log"
    ∃ opened, (openAt access .info (some log)).run.run (ofFiles [])
        = (.ok ⟨.info, some log⟩, opened)
      ∧ opened.locate log = .ok ["tmp", "run", "run.log"]
      ∧ opened.sinks.contains ["tmp", "run", "run.log"] = false ∧ opened.read log = .ok "" :=
  ⟨_, rfl, rfl, rfl, rfl⟩

end LogBook

/-! ### The settings -/

variable {α : Type} [Number.Scalar α]

/-- **The settings of a run are those of its file**, if it is given one that reads as a text, and
otherwise those of its environment. -/
theorem configure_access (arguments : Arguments) (environment : List (String × String))
    (tree : Tree) :
    (arguments.config = none → ((configure α access arguments environment).run.run tree).1
        = Configuration.ofEnvironment environment)
      ∧ (∀ name text, arguments.config = some (some name) →
        tree.read (Path.ofText name) = .ok text →
        ((configure α access arguments environment).run.run tree).1
          = Configuration.ofText (Path.ofText name) (unified text))
      ∧ ((configure α access arguments environment).run.run tree).2 = tree := by
  unfold configure
  refine ⟨fun none => ?_, fun name text given reads => ?_, ?_⟩
  · rw [none]
    rfl
  · rw [given]
    dsimp only
    rw [run_access, run_read, reads]
    rfl
  · split
    · rfl
    · rfl
    · rename_i name _
      dsimp only
      rw [run_access, run_read]
      cases tree.read (Path.ofText name) with
      | ok text => rfl
      | error obstacle => cases obstacle <;> rfl

end Console

end Showreel
