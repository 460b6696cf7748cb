import LayoutRules.Proofs.Storage.Delivery
import Mathlib.Tactic.SplitIfs

/-! What a path leads over. To read it, or to open it for writing, looks at these
locations and at no others; where they hold the same, so does the path. The trail ends
where the way ends: a location that the names go on to pass behind a missing directory
is not on it. -/
namespace LayoutRules

namespace Path

def origin (path : Path) (here : Location) : Location := if path.isAbsolute then [] else here

/-- The location that a path names, if the way there is free. -/
def place (path : Path) (here : Location) : Location :=
  path.names.foldl FileTree.step (path.origin here)

end Path

namespace FileTree
variable {tree other : FileTree} {location place : Location} {names : List Text}
  {here : Location} {path : Path}

/-- The locations that names lead over from a location, up to the first that holds no directory. -/
def trail (tree : FileTree) : Location → List Text → List Location
  | location, [] => [location]
  | location, name :: rest =>
    match tree.find location with
    | .ok .directory => location :: tree.trail (step location name) rest
    | _ => [location]

def trailOf (tree : FileTree) (here : Location) (path : Path) : List Location :=
  tree.trail (path.origin here) path.names

theorem lookup_insert_of_ne (nodes : List (Location × Node)) (node : Node)
    (differs : place ≠ location) :
    (insert nodes location node).lookup place = nodes.lookup place := by
  induction nodes with
  | nil => rw [insert,List.lookup_cons,beq_false_of_ne differs]
  | cons entry rest ih =>
    unfold insert
    split
    · rename_i same
      rw [List.lookup_cons,List.lookup_cons,same,beq_false_of_ne differs]
    · rw [List.lookup_cons,List.lookup_cons,ih]

theorem node?_put_of_ne (node : Node) (differs : place ≠ location) :
    (tree.put location node).node? place = tree.node? place := by
  unfold node? put
  rw [lookup_insert_of_ne _ _ differs]

theorem node?_put_self (below : location ≠ []) (node : Node) :
    (tree.put location node).node? location = some node := by
  unfold node? put
  rw [if_neg below,lookup_insert_self]

theorem node?_put_congr (same : place ≠ location → other.node? place = tree.node? place)
    (node : Node) :
    (other.put location node).node? place = (tree.put location node).node? place := by
  by_cases there : place = location
  · rw [there]
    by_cases root : location = []
    · simp [node?,root]
    · rw [node?_put_self root,node?_put_self root]
  · rw [node?_put_of_ne _ there,node?_put_of_ne _ there,same there]

theorem node?_put_of_agree
    (agree : ∀ place, place ≠ location → other.node? place = tree.node? place) (node : Node) :
    (other.put location node).node? = (tree.put location node).node? :=
  funext fun place => node?_put_congr (agree place) node

theorem content_congr (same : other.node? location = tree.node? location) :
    other.content location = tree.content location := by
  rw [content,content,same]

theorem node?_grow_of_ne (bytes : Bytes) (differs : place ≠ location) :
    (tree.grow (some location) bytes).node? place = tree.node? place := by
  by_cases empty : bytes = []
  · rw [empty,grow_nil]
  · rw [grow,if_neg empty,node?_put_of_ne _ differs]

theorem node?_grow_emptied (below : location ≠ []) (bytes : Bytes) :
    ((tree.put location (.file [])).grow (some location) bytes).node? location =
      some (.file bytes) := by
  by_cases empty : bytes = []
  · rw [empty,grow_nil,node?_put_self below]
  · rw [grow,if_neg empty,node?_put_self below,content_put below,List.nil_append]

/-- The last name of the location takes more bytes than a name can have. -/
def overlong (location : Location) : Bool :=
  location.getLast?.any fun name => 255 < (Utf8.encode name).length

theorem find_eq (tree : FileTree) (location : Location) :
    tree.find location = if overlong location then .error .nameTooLong
        else match tree.node? location with
      | some node => .ok node
      | none => .error .notFound := rfl

theorem find_congr (same : other.node? location = tree.node? location) :
    other.find location = tree.find location := by
  rw [find,find,same]

theorem node?_of_find {node : Node} (found : tree.find location = .ok node) :
    tree.node? location = some node := by
  unfold find at found
  split at found
  · cases found
  · split at found
    · cases found
      assumption
    · cases found

theorem follow_congr
    (agree : ∀ place ∈ tree.trail location names, other.node? place = tree.node? place) :
    other.follow location names = tree.follow location names ∧
      other.trail location names = tree.trail location names := by
  induction names generalizing location with
  | nil => exact ⟨rfl,rfl⟩
  | cons name rest ih =>
    have first : location ∈ tree.trail location (name :: rest) := by
      unfold trail
      split <;> exact List.mem_cons_self
    have found := find_congr (agree location first)
    cases held : tree.find location with
    | error fault => simp only [follow,trail,found,held,and_self]
    | ok node =>
      cases node with
      | file content => simp only [follow,trail,found,held,and_self]
      | directory =>
        have later : ∀ place ∈ tree.trail (step location name) rest,
            other.node? place = tree.node? place := by
          intro place member
          apply agree
          simp only [trail,held]
          exact List.mem_cons_of_mem _ member
        obtain ⟨followed,trail⟩ := ih later
        simp only [follow,FileTree.trail,found,held,followed,trail,and_self]

theorem find_eq_directory_iff :
    tree.find location = .ok .directory ↔ overlong location = false ∧
      tree.node? location = some .directory := by
  rw [find_eq]
  cases overlong location with
  | true => simp
  | false => rcases tree.node? location with _ | ⟨_ | _⟩ <;> simp

/-- Where a trail leads and ends is a matter of the directories alone. -/
theorem trail_of_directories
    (same : ∀ place, other.node? place = some .directory ↔ tree.node? place = some .directory) :
    other.trail location names = tree.trail location names := by
  induction names generalizing location with
  | nil => rfl
  | cons name rest ih =>
    have passes : other.find location = .ok .directory ↔ tree.find location = .ok .directory := by
      rw [find_eq_directory_iff,find_eq_directory_iff,same]
    by_cases passed : tree.find location = .ok .directory
    · rw [trail,trail,passed,passes.mpr passed]
      dsimp only
      rw [ih]
    · have ends (tree : FileTree) (stops : tree.find location ≠ .ok .directory) :
          tree.trail location (name :: rest) = [location] := by
        unfold trail
        split
        · contradiction
        · rfl
      rw [ends tree passed,ends other (mt passes.mp passed)]

theorem mem_trail_of_follow (followed : tree.follow location names = .ok place) :
    place ∈ tree.trail location names := by
  induction names generalizing location with
  | nil =>
    cases followed
    exact List.mem_singleton_self _
  | cons name rest ih =>
    unfold follow at followed
    split at followed
    · cases followed
    · cases followed
    · rename_i held
      simp only [trail,held]
      exact List.mem_cons_of_mem _ (ih followed)

theorem place_of_follow (followed : tree.follow location names = .ok place) :
    place = names.foldl step location := by
  induction names generalizing location with
  | nil =>
    cases followed
    rfl
  | cons name rest ih =>
    unfold follow at followed
    split at followed
    · cases followed
    · cases followed
    · exact ih followed

theorem follow_of_locate (located : tree.locate here path = .ok place) :
    tree.follow (path.origin here) path.names = .ok place := by
  unfold locate at located
  split at located
  · cases located
  · split at located
    · cases located
    · split at located
      · cases located
      · exact located

theorem locate_congr (same : other.follow (path.origin here) path.names =
      tree.follow (path.origin here) path.names) :
    other.locate here path = tree.locate here path := by
  unfold locate
  unfold Path.origin at same
  rw [same]

/-- Trees that hold the same along the trail of a path read the same there. -/
theorem read_congr
    (agree : ∀ place ∈ tree.trailOf here path, other.node? place = tree.node? place) :
    other.read here path = tree.read here path := by
  have located := locate_congr (follow_congr agree).1
  unfold read
  rw [located]
  cases led : tree.locate here path with
  | error fault => rfl
  | ok place =>
    have found := find_congr (agree place (mem_trail_of_follow (follow_of_locate led)))
    change (other.find place >>= _) = (tree.find place >>= _)
    rw [found]

theorem locateForWriting_of_locate (located : tree.locate here path = .ok location) :
    tree.locateForWriting here path =
      if path.endsInSlash then .error .isADirectory
      else if overlong location then .error .nameTooLong
      else if tree.node? location = some .directory then .error .isADirectory
      else .ok location := by
  rw [locateForWriting,located]
  cases path.endsInSlash with
  | true => rfl
  | false =>
    have found := tree.find_eq location
    dsimp only [bind,Except.bind]
    cases long : overlong location with
    | true =>
      rw [long] at found
      simp only [found]
      rfl
    | false =>
      rw [long] at found
      rcases held : tree.node? location with _ | ⟨_ | _⟩ <;>
        (rw [held] at found; simp only [found]; rfl)

theorem locateForWriting_congr
    (agree : ∀ place ∈ tree.trailOf here path, other.node? place = tree.node? place) :
    other.locateForWriting here path = tree.locateForWriting here path := by
  have located := locate_congr (follow_congr agree).1
  cases led : tree.locate here path with
  | error fault =>
    rw [locateForWriting,locateForWriting,located,led]
    rfl
  | ok place =>
    have same := agree place (mem_trail_of_follow (follow_of_locate led))
    rw [locateForWriting_of_locate led,locateForWriting_of_locate (located.trans led),same]

/-- A path opens for writing where it leads to a file or to nothing, by a name that can be had. -/
theorem locateForWriting_eq_ok_iff :
    tree.locateForWriting here path = .ok place ↔
      tree.locate here path = .ok place ∧ path.endsInSlash = false ∧ overlong place = false ∧
        tree.node? place ≠ some .directory := by
  cases located : tree.locate here path with
  | error fault =>
    rw [locateForWriting,located]
    exact ⟨nofun,fun opens => absurd opens.1 nofun⟩
  | ok location =>
    rw [locateForWriting_of_locate located]
    constructor
    · intro opens
      split_ifs at opens with slash long held
      cases opens
      exact ⟨rfl,Bool.eq_false_iff.mpr slash,Bool.eq_false_iff.mpr long,held⟩
    · rintro ⟨same,slash,long,free⟩
      cases same
      rw [slash,long,if_neg free]
      rfl

theorem place_of_opens (opens : tree.locateForWriting here path = .ok place) :
    place = path.place here :=
  place_of_follow (follow_of_locate (locateForWriting_eq_ok_iff.mp opens).1)

theorem ne_root_of_opens (opens : tree.locateForWriting here path = .ok place) : place ≠ [] := by
  rintro rfl
  exact (locateForWriting_eq_ok_iff.mp opens).2.2.2 rfl

theorem follow_of_agree (followed : tree.follow location names = .ok place)
    (free : tree.node? place ≠ some .directory)
    (agree : ∀ location, location ≠ place → other.node? location = tree.node? location) :
    other.follow location names = .ok place := by
  induction names generalizing location with
  | nil => exact followed
  | cons name rest ih =>
    unfold follow at followed
    split at followed
    · cases followed
    · cases followed
    · rename_i held
      -- The names pass directories only, and the place they lead to holds none.
      have passed : location ≠ place := fun same => free (same ▸ node?_of_find held)
      rw [follow,find_congr (agree location passed),held]
      exact ih followed

theorem opens_of_agree (opens : tree.locateForWriting here path = .ok place)
    (agree : ∀ location, location ≠ place → other.node? location = tree.node? location)
    (free : other.node? place ≠ some .directory) :
    other.locateForWriting here path = .ok place := by
  obtain ⟨located,slash,long,held⟩ := locateForWriting_eq_ok_iff.mp opens
  have followed := follow_of_agree (follow_of_locate located) held agree
  have same : other.locate here path = tree.locate here path :=
    locate_congr (followed.trans (follow_of_locate located).symm)
  exact locateForWriting_eq_ok_iff.mpr ⟨same.trans located,slash,long,free⟩

end FileTree
end LayoutRules
