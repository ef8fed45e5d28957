import MessagingIdentity.CommandLine.FileSystem
import MessagingIdentity.Proofs.CacheTables
import MessagingIdentity.Proofs.Outcomes

namespace MessagingIdentity

namespace Path

theorem go_of_ne {here : Path} {n : String} (hname : n ≠ "") (h : n ≠ "..") :
    go here n = here ++ [n] :=
  (if_neg hname).trans (if_neg fun hn ↦ h hn.1)

theorem steps_append (xs ys : List Char) : steps (xs ++ '/' :: ys) = steps xs ++ steps ys := by
  simp only [steps, List.splitOn_append_cons_self, List.map_append, List.filter_append]

theorem steps_of_notMem {cs : List Char} (h : '/' ∉ cs) (hne : cs ≠ []) (hdot : cs ≠ ['.']) :
    steps cs = [String.ofList cs] := by
  have hname : String.ofList cs ≠ "" ∧ String.ofList cs ≠ "." := by
    simpa [← String.toList_inj] using ⟨hne, hdot⟩
  simpa [steps, List.splitOn_eq_singleton h] using hname

def start (cs : List Char) : Path := if cs.head? = some '/' then [] else ["."]

theorem ofText_eq (s : String) : ofText s = start s.toList ++ steps s.toList ++ ending s.toList := by
  unfold ofText start
  split
  next hs => rw [hs, List.head?_cons, if_pos rfl, List.nil_append]
  next hs =>
    have hhead : s.toList.head? ≠ some '/' := fun h ↦ by
      obtain ⟨cs, hcs⟩ := List.head?_eq_some_iff.mp h
      exact hs cs hcs
    rw [if_neg hhead, List.singleton_append]

theorem eq_of_mem_ending {cs : List Char} {n : String} (h : n ∈ ending cs) : n = "" := by
  unfold ending at h
  split at h
  · simpa using h
  split at h
  · simpa using h
  · cases h

theorem ending_of_name (cs : List Char) {name : List Char} (h : '/' ∉ name) (hne : name ≠ [])
    (hdot : name ≠ ['.']) : ending (cs ++ '/' :: name) = [] ∧ ending name = [] := by
  have hlast (cs : List Char) : (cs ++ name).getLast? ≠ some '/' := fun hlast ↦ by
    rw [List.getLast?_append_of_ne_nil cs hne] at hlast
    exact h (List.mem_of_getLast? hlast)
  have hsplit := List.splitOn_eq_singleton h
  constructor
  · rw [ending, List.splitOn_append_cons_self, hsplit, if_neg, if_neg]
    · simpa using hlast (cs ++ ['/'])
    · simpa [hne] using hdot
  · rw [ending, hsplit, if_neg, if_neg]
    · exact hlast []
    · simpa [hne] using hdot

theorem bare_ofText (s : String) : (ofText s).bare = start s.toList ++ steps s.toList := by
  have hstart : (start s.toList).filter (· ≠ "") = start s.toList := by
    unfold start
    split <;> rfl
  have hsteps : (steps s.toList).filter (· ≠ "") = steps s.toList := by
    refine List.filter_eq_self.mpr fun n hn ↦ ?_
    have hname := (List.mem_filter.mp hn).2
    simp only [Bool.not_or, Bool.and_eq_true, Bool.not_eq_true', beq_eq_false_iff_ne] at hname
    exact decide_eq_true hname.1
  have hending : (ending s.toList).filter (· ≠ "") = [] :=
    List.filter_eq_nil_iff.mpr fun n hn ↦ by simp [eq_of_mem_ending hn]
  rw [ofText_eq, bare, List.filter_append, List.filter_append, hstart, hsteps, hending,
    List.append_nil]

theorem ofText_eq_bare_append (s : String) :
    ∃ stays, ofText s = (ofText s).bare ++ stays ∧ ∀ n ∈ stays, n = "" :=
  ⟨ending s.toList, by rw [bare_ofText, ← ofText_eq], fun _ ↦ eq_of_mem_ending⟩

example : ofText "gone/." = [".", "gone"] ++ ["", ""] := rfl

theorem ne_of_mem_bare {p : Path} {n : String} (h : n ∈ p.bare) : n ≠ "" :=
  of_decide_eq_true (List.mem_filter.mp h).2

/-- The name of a file in a directory is one more step. -/
theorem ofText_join (directory : String) {name : String} (h : '/' ∉ name.toList)
    (hne : name ≠ "") (hdot : name ≠ ".") :
    ofText (join directory name) = (ofText directory).bare ++ [name] := by
  have hne' : name.toList ≠ [] := by simpa using hne
  have hdot' : name.toList ≠ ['.'] := by simpa [← String.toList_inj] using hdot
  have hsteps : steps name.toList = [name] := by
    rw [steps_of_notMem h hne' hdot', String.ofList_toList]
  have hending (cs : List Char) := ending_of_name cs h hne' hdot'
  rw [ofText_eq, bare_ofText, List.append_assoc]
  unfold join start
  split
  next hlast =>
    have hempty := List.getLast?_eq_none_iff.mp hlast
    have hhead : name.toList.head? ≠ some '/' := fun hhead ↦ h (List.mem_of_mem_head? hhead)
    rw [hempty, hsteps, if_neg hhead, (hending []).2]
    rfl
  next hlast =>
    obtain ⟨cs, hcs⟩ := List.getLast?_eq_some_iff.mp hlast
    have hhead : (cs ++ '/' :: name.toList).head? = (cs ++ ['/']).head? := by cases cs <;> rfl
    rw [String.toList_append, hcs, List.append_assoc, List.singleton_append, hhead, steps_append,
      steps_append, hsteps, (hending cs).1, List.append_nil, List.append_assoc]
    congr 1
    simp [steps]
  next hlast _ =>
    have hcs : directory.toList ≠ [] := fun hcs ↦ hlast (List.getLast?_eq_none_iff.mpr hcs)
    obtain ⟨c, cs, hcs⟩ := List.exists_cons_of_ne_nil hcs
    have htext : (directory ++ "/" ++ name).toList = directory.toList ++ '/' :: name.toList := by
      simp
    rw [htext, steps_append, hsteps, (hending _).1, hcs, List.append_nil, List.append_assoc]
    rfl

theorem prefix_of_prefix_go {q here : Path} {n : String} (h : q <+: go here n)
    (hne : q ≠ go here n) : q <+: here := by
  unfold go at h hne
  split at h
  next => exact h
  next hname =>
    rw [if_neg hname] at hne
    split at h
    next hup =>
      exact h.trans (List.dropLast_prefix here)
    next hup =>
      rw [if_neg hup] at hne
      exact (List.prefix_concat_iff.mp h).resolve_left hne

end Path

namespace FileSystem

/-- All places above a place are directories. -/
def Reachable (fs : FileSystem) (place : Path) : Prop :=
  ∀ q, q <+: place → q ≠ place → fs.at? q = some .directory

variable {fs fs' fs'' : FileSystem} {here place : Path}

theorem Reachable.of_prefix (h : fs.Reachable place) {q : Path} (hq : q <+: place) :
    fs.Reachable q := by
  intro r hr hne
  refine h r (hr.trans hq) fun heq ↦ hne ?_
  exact hr.eq_of_length_le (heq ▸ hq.length_le)

theorem reachable_nil (fs : FileSystem) : fs.Reachable [] :=
  fun _ hq hne ↦ absurd (List.prefix_nil.mp hq) hne

theorem Reachable.go (h : fs.Reachable here) (hdir : fs.at? here = some .directory) (n : String) :
    fs.Reachable (Path.go here n) := by
  intro q hq hne
  by_cases heq : q = here
  · exact heq ▸ hdir
  · exact h q (Path.prefix_of_prefix_go hq hne) heq

theorem follow_cons_eq_ok_iff {n : String} {steps : List String} :
    fs.follow here (n :: steps) = .ok place ↔
      fs.at? here = some .directory ∧ fs.follow (Path.go here n) steps = .ok place := by
  rw [follow]
  split
  next hdir => simp [hdir]
  next hfile => simp [hfile]
  next hnone => simp [hnone]

theorem follow_concat_eq_ok_iff {n : String} {steps : List String} :
    fs.follow here (steps ++ [n]) = .ok place ↔ ∃ last, fs.follow here steps = .ok last ∧
      fs.at? last = some .directory ∧ place = Path.go last n := by
  induction steps generalizing here with
  | nil =>
    rw [List.nil_append, follow_cons_eq_ok_iff]
    simp [follow, eq_comm]
  | cons s steps ih =>
    simp only [List.cons_append, follow_cons_eq_ok_iff, ih, and_assoc, exists_and_left]

theorem locate_concat_eq_ok_iff {n : String} {p : Path} :
    fs.locate (p ++ [n]) = .ok place ↔ ∃ last, fs.locate p = .ok last ∧
      fs.at? last = some .directory ∧ place = Path.go last n := follow_concat_eq_ok_iff

theorem Reachable.follow {steps : List String} (h : fs.Reachable here)
    (hplace : fs.follow here steps = .ok place) : fs.Reachable place := by
  induction steps generalizing here with
  | nil => exact Except.ok.inj hplace ▸ h
  | cons n steps ih =>
    obtain ⟨hdir, hrest⟩ := follow_cons_eq_ok_iff.mp hplace
    exact ih (h.go hdir n) hrest

theorem reachable_of_locate {p : Path} (h : fs.locate p = .ok place) : fs.Reachable place :=
  (reachable_nil fs).follow h

theorem node?_eq_some_iff {p : Path} {n : Node} :
    fs.node? p = some n ↔ ∃ place, fs.locate p = .ok place ∧ fs.at? place = some n := by
  unfold node?
  split
  next place hplace => simp [hplace]
  next e he => simp [he]

/-- Behind a slash at its end, a path leads to directories alone. -/
theorem node?_stay_eq_some_iff {p : Path} {n : Node} :
    fs.node? (p ++ [""]) = some n ↔ n = .directory ∧ fs.node? p = some .directory := by
  rw [node?_eq_some_iff, node?_eq_some_iff]
  constructor
  · intro h
    obtain ⟨place, hplace, hat⟩ := h
    obtain ⟨last, hlast, hdir, rfl⟩ := locate_concat_eq_ok_iff.mp hplace
    exact ⟨Option.some.inj (hat.symm.trans hdir), place, hlast, hdir⟩
  · intro h
    obtain ⟨rfl, place, hplace, hdir⟩ := h
    exact ⟨place, locate_concat_eq_ok_iff.mpr ⟨place, hplace, hdir, rfl⟩, hdir⟩

theorem node?_append_of_stays {p stays : Path} (h : fs.node? p = some .directory)
    (hstays : ∀ n ∈ stays, n = "") : fs.node? (p ++ stays) = some .directory := by
  induction stays generalizing p with
  | nil => rwa [List.append_nil]
  | cons n stays ih =>
    obtain rfl := hstays n List.mem_cons_self
    have hrest := ih (node?_stay_eq_some_iff.mpr ⟨rfl, h⟩)
      fun n hn ↦ hstays n (List.mem_cons_of_mem _ hn)
    rwa [List.append_assoc] at hrest

theorem contains_of_bare {s : String} (h : fs.node? (Path.ofText s).bare = some .directory) :
    fs.contains (Path.ofText s) = true := by
  obtain ⟨stays, htext, hstays⟩ := Path.ofText_eq_bare_append s
  rw [htext, contains, node?_append_of_stays h hstays]
  rfl

theorem read_eq_ok_iff {p : Path} {content : Bytes} :
    fs.read p = .ok content ↔ fs.node? p = some (.file content) := by
  rw [node?_eq_some_iff, read, Except.bind_eq_ok_iff]
  refine exists_congr fun place ↦ and_congr_right fun _ ↦ ?_
  split
  next c hc => simp [hc]
  next hdir => simp [hdir]
  next hnone => simp [hnone]

/-- Everything that can be reached is still there, as it was. -/
def Keeps (fs fs' : FileSystem) : Prop :=
  ∀ place n, fs.Reachable place → fs.at? place = some n → fs'.at? place = some n

theorem Keeps.refl (fs : FileSystem) : fs.Keeps fs := fun _ _ _ h ↦ h

theorem Keeps.reachable (h : fs.Keeps fs') (hr : fs.Reachable place) : fs'.Reachable place :=
  fun q hq hne ↦ h q _ (hr.of_prefix hq) (hr q hq hne)

theorem Keeps.trans (h : fs.Keeps fs') (h' : fs'.Keeps fs'') : fs.Keeps fs'' :=
  fun place n hr hn ↦ h' place n (h.reachable hr) (h place n hr hn)

/-- Following steps looks at directories alone. -/
theorem follow_of_directories {steps : List String}
    (hdirs : ∀ q, fs.Reachable q → fs.at? q = some .directory → fs'.at? q = some .directory)
    (hr : fs.Reachable here) (h : fs.follow here steps = .ok place) :
    fs'.follow here steps = .ok place := by
  induction steps generalizing here with
  | nil => exact h
  | cons n steps ih =>
    obtain ⟨hdir, hrest⟩ := follow_cons_eq_ok_iff.mp h
    exact follow_cons_eq_ok_iff.mpr ⟨hdirs here hr hdir, ih (hr.go hdir n) hrest⟩

theorem Keeps.locate (h : fs.Keeps fs') {p : Path} (hp : fs.locate p = .ok place) :
    fs'.locate p = .ok place :=
  follow_of_directories (fun q hr hdir ↦ h q _ hr hdir) (reachable_nil fs) hp

theorem Keeps.node? (h : fs.Keeps fs') {p : Path} {n : Node} (hn : fs.node? p = some n) :
    fs'.node? p = some n := by
  obtain ⟨place, hplace, hat⟩ := node?_eq_some_iff.mp hn
  exact node?_eq_some_iff.mpr ⟨place, h.locate hplace, h place n (reachable_of_locate hplace) hat⟩

theorem at?_assign (n : Node) (fs : FileSystem) (place q : Path) :
    at? ⟨assign place n fs.nodes⟩ q =
      if Path.isBase q = false ∧ q = place then some n else fs.at? q := by
  unfold at?
  by_cases hq : Path.isBase q = true
  · simp [hq]
  · simp [hq, lookup_assign]

/-- What is put at a place that could not be reached, or where nothing was, takes nothing away. -/
theorem Keeps.assign (h : fs.Keeps fs') (n : Node)
    (hnew : fs.Reachable place → fs.at? place = none) :
    fs.Keeps ⟨MessagingIdentity.assign place n fs'.nodes⟩ := by
  intro q m hr hm
  rw [at?_assign]
  split
  next heq =>
    obtain ⟨-, rfl⟩ := heq
    rw [hnew hr] at hm
    cases hm
  next => exact h q m hr hm

theorem keeps_makeDirectory (p : Path) (fs : FileSystem) : fs.Keeps (makeDirectory p fs).2 := by
  unfold makeDirectory
  split
  · exact .refl fs
  split
  · exact .refl fs
  next hnone => exact (Keeps.refl fs).assign _ fun _ ↦ hnone

theorem keeps_ensureDirectory (p : Path) (fs : FileSystem) : fs.Keeps (ensureDirectory p fs).2 := by
  have h := keeps_makeDirectory p fs
  unfold ensureDirectory
  split
  next hm => exact hm ▸ h
  next hm =>
    rw [hm] at h
    split <;> exact h

theorem Change.keeps_andThen {first second : Change} (hfirst : fs.Keeps (first fs').2)
    (hsecond : ∀ fs'', fs.Keeps fs'' → fs.Keeps (second fs'').2) :
    fs.Keeps (first.andThen second fs').2 := by
  unfold andThen
  split
  next hm =>
    rw [hm] at hfirst
    exact hsecond _ hfirst
  next hm =>
    rw [hm] at hfirst
    exact hfirst

theorem keeps_makeUpwards (steps : List String) (p : Path) (fs : FileSystem) :
    fs.Keeps (makeUpwards steps p fs).2 := by
  induction steps generalizing p fs with
  | nil => exact .refl fs
  | cons n above ih =>
    have hstep := keeps_makeDirectory p fs
    unfold makeUpwards
    split
    next hm =>
      rw [hm] at hstep
      exact Change.keeps_andThen (hstep.trans (ih _ _)) fun fs'' h ↦
        h.trans (keeps_ensureDirectory _ fs'')
    next => exact keeps_ensureDirectory _ fs

theorem keeps_makeDirectories (p : Path) (fs : FileSystem) : fs.Keeps (makeDirectories p fs).2 :=
  keeps_makeUpwards _ p fs

theorem Change.ok_of_andThen {first second : Change} (h : (first.andThen second fs).1 = .ok ()) :
    (first fs).1 = .ok () ∧ first.andThen second fs = second (first fs).2 := by
  unfold andThen at h ⊢
  split at h
  next hm => simp [hm]
  next => cases h

theorem write_eq_of_ok {p : Path} {content : Bytes} (h : (write p content fs).1 = .ok ()) :
    ∃ place, fs.locate p = .ok place ∧ fs.at? place ≠ some .directory ∧
      (write p content fs).2 = ⟨assign place (.file content) fs.nodes⟩ := by
  unfold write at h ⊢
  split at h
  next => cases h
  next place hplace =>
    split at h
    next => cases h
    next hne => exact ⟨place, hplace, hne, rfl⟩

theorem locate_write {p q : Path} {content : Bytes} (hq : fs.locate q = .ok place) :
    (write p content fs).2.locate q = .ok place := by
  unfold write
  split
  · exact hq
  next there hthere =>
    split
    · exact hq
    next hne =>
      refine follow_of_directories (fun r _ hdir ↦ ?_) (reachable_nil fs) hq
      rw [at?_assign, if_neg, hdir]
      rintro ⟨-, rfl⟩
      exact hne hdir

theorem read_write {p : Path} {content : Bytes} (h : (write p content fs).1 = .ok ()) :
    (write p content fs).2.read p = .ok content := by
  obtain ⟨place, hplace, hne, hfs⟩ := write_eq_of_ok h
  refine read_eq_ok_iff.mpr (node?_eq_some_iff.mpr ⟨place, locate_write hplace, ?_⟩)
  have hbase : Path.isBase place = false := by
    rw [← Bool.not_eq_true]
    intro hbase
    exact hne (by rw [at?, if_pos hbase])
  rw [hfs, at?_assign, if_pos ⟨hbase, rfl⟩]

theorem read_write_of_ne {p : Path} {m n : String} (hm : m ≠ "" ∧ m ≠ "..") (hn : n ≠ "" ∧ n ≠ "..")
    (hne : m ≠ n) {content written : Bytes} (h : fs.read (p ++ [m]) = .ok content) :
    (write (p ++ [n]) written fs).2.read (p ++ [m]) = .ok content := by
  obtain ⟨place, hplace, hat⟩ := node?_eq_some_iff.mp (read_eq_ok_iff.mp h)
  refine read_eq_ok_iff.mpr (node?_eq_some_iff.mpr ⟨place, locate_write hplace, ?_⟩)
  obtain ⟨last, hlast, -, rfl⟩ := locate_concat_eq_ok_iff.mp hplace
  unfold write
  split
  · exact hat
  next there hthere =>
    obtain ⟨last', hlast', -, rfl⟩ := locate_concat_eq_ok_iff.mp hthere
    obtain rfl : last = last' := Except.ok.inj (hlast.symm.trans hlast')
    split
    · exact hat
    · rw [at?_assign, if_neg, hat]
      rw [Path.go_of_ne hm.1 hm.2, Path.go_of_ne hn.1 hn.2]
      simp [hne]

/-- A path goes back up only from where something is. -/
def Climbs (fs : FileSystem) (p : Path) : Prop := ∀ q, q ++ [".."] <+: p → fs.contains q = true

theorem Climbs.bare {s : String} (h : fs.Climbs (Path.ofText s)) :
    fs.Climbs (Path.ofText s).bare := by
  obtain ⟨stays, htext, -⟩ := Path.ofText_eq_bare_append s
  exact fun q hq ↦ h q (htext ▸ hq.trans (List.prefix_append _ _))

theorem climbs_of_notMem {p : Path} (h : ".." ∉ p) (fs : FileSystem) : fs.Climbs p :=
  fun _ hq ↦ absurd (hq.subset (List.mem_append_right _ (List.mem_singleton_self _))) h

/-- A path of this kind, all of whose steps have names, that leads, after some changes, to a place
that could be reached before, led there before. -/
theorem Keeps.locate_of_climbs (h : fs.Keeps fs') {p : Path} (hnames : "" ∉ p) (hp : fs.Climbs p)
    (hplace : fs'.locate p = .ok place) (hr : fs.Reachable place) : fs.locate p = .ok place := by
  induction p using List.reverseRecOn generalizing place with
  | nil => exact hplace
  | append_singleton p n ih =>
    obtain ⟨last, hlast, hdir, rfl⟩ := locate_concat_eq_ok_iff.mp hplace
    refine locate_concat_eq_ok_iff.mpr ⟨last, ?_⟩
    by_cases hn : n = ".."
    · subst hn
      obtain ⟨m, hm⟩ := Option.isSome_iff_exists.mp (hp p (List.prefix_refl _))
      obtain ⟨there, hthere, hat⟩ := node?_eq_some_iff.mp hm
      obtain rfl : there = last := Except.ok.inj ((h.locate hthere).symm.trans hlast)
      have hat' := h there m (reachable_of_locate hthere) hat
      rw [hdir] at hat'
      exact ⟨hthere, hat.trans hat'.symm, rfl⟩
    · have hname : n ≠ "" := fun hn ↦ hnames (hn ▸ List.mem_concat_self)
      rw [Path.go_of_ne hname hn] at hr ⊢
      have hprefix := List.prefix_append last [n]
      have hlast' := ih (fun hmem ↦ hnames (List.mem_append_left _ hmem))
        (fun q hq ↦ hp q (hq.trans (List.prefix_append p [n]))) hlast (hr.of_prefix hprefix)
      exact ⟨hlast', hr last hprefix (by simp), rfl⟩

/-- What is written into a directory that was not there takes nothing away. -/
theorem Keeps.write (h : fs.Keeps fs') {p : Path} (hnames : "" ∉ p) (hp : fs.Climbs p)
    (hnew : fs.node? p ≠ some .directory) {n : String} (hn : n ≠ "" ∧ n ≠ "..") (content : Bytes) :
    fs.Keeps (write (p ++ [n]) content fs').2 := by
  unfold FileSystem.write
  split
  · exact h
  next place hplace =>
    split
    · exact h
    refine h.assign _ fun hr ↦ ?_
    obtain ⟨last, hlast, hdir, rfl⟩ := locate_concat_eq_ok_iff.mp hplace
    rw [Path.go_of_ne hn.1 hn.2] at hr
    have hprefix := List.prefix_append last [n]
    have hlast' := h.locate_of_climbs hnames hp hlast (hr.of_prefix hprefix)
    exact absurd (node?_eq_some_iff.mpr ⟨last, hlast', hr last hprefix (by simp)⟩) hnew

end FileSystem

end MessagingIdentity
