import LayoutRules.Proofs.Storage.Run

/-! What is written to a sink arrives where the sink brings it, in order and once. A file
sink holds the end of it back until it is flushed. Of the files none changes but that of
the sink, to which the bytes that arrive are added. It cannot be the root, which is a
directory and never opens for writing. -/
namespace LayoutRules

namespace FileTree
variable {tree : FileTree} {location : Location}

theorem lookup_insert_self (nodes : List (Location × Node)) (location : Location) (node : Node) :
    (insert nodes location node).lookup location = some node := by
  induction nodes with
  | nil => simp [insert]
  | cons entry rest ih =>
    unfold insert
    split
    · exact List.lookup_cons_self
    · rename_i differs
      have other : (location == entry.1) = false := beq_false_of_ne (Ne.symm differs)
      rw [List.lookup_cons,other]
      exact ih

theorem insert_insert (nodes : List (Location × Node)) (location : Location) (first second : Node) :
    insert (insert nodes location first) location second = insert nodes location second := by
  induction nodes with
  | nil => simp [insert]
  | cons entry rest ih =>
    by_cases same : entry.1 = location
    · simp [insert,same]
    · simp [insert,same,ih]

theorem content_put (below : location ≠ []) (content : Bytes) :
    (tree.put location (.file content)).content location = content := by
  simp only [FileTree.content,node?,put,if_neg below,lookup_insert_self]

theorem put_put (first second : Node) :
    (tree.put location first).put location second = tree.put location second :=
  congrArg FileTree.mk (insert_insert _ _ _ _)

/-- The tree with bytes added to the file of a sink, where the sink has a file. -/
def grow (tree : FileTree) : Option Location → Bytes → FileTree
  | none, _ => tree
  | some location, bytes =>
    if bytes = [] then tree else tree.put location (.file (tree.content location ++ bytes))

@[simp] theorem grow_nil (tree : FileTree) (file : Option Location) : tree.grow file [] = tree := by
  cases file <;> rfl

theorem content_grow (below : location ≠ []) (bytes : Bytes) :
    (tree.grow (some location) bytes).content location = tree.content location ++ bytes := by
  by_cases empty : bytes = []
  · rw [empty,grow_nil,List.append_nil]
  · rw [grow,if_neg empty,content_put below]

theorem grow_grow {file : Option Location} (below : file ≠ some []) (first second : Bytes) :
    (tree.grow file first).grow file second = tree.grow file (first ++ second) := by
  cases file with
  | none => rfl
  | some location =>
    have apart : location ≠ [] := fun root => below (congrArg some root)
    by_cases nothing : second = []
    · rw [nothing,grow_nil,List.append_nil]
    · rw [grow,if_neg nothing,content_grow apart]
      by_cases empty : first = []
      · simp [grow,empty,nothing]
      · simp [grow,empty,put_put]

end FileTree

namespace Sink

def file? : Sink → Option Location
  | file place _ => some place
  | _ => none

def pending : Sink → Bytes
  | file _ pending => pending
  | _ => []

theorem pending_of_no_file {sink : Sink} (file : sink.file? = none) : sink.pending = [] := by
  cases sink with
  | stdout => rfl
  | file place pending => cases file
  | memory limit refuses content => rfl

end Sink

namespace World

/-- The bytes that stand where the sink brings what is written to it. -/
def delivered (world : World) : Bytes :=
  match world.sink with
  | .stdout => world.stdout
  | .file place _ => world.tree.content place
  | .memory _ _ content => content

/-- What became of bytes written between two worlds: those that
arrived, and by that what is pending now. -/
structure Delivers (start final : World) (bytes arrived : Bytes) : Prop where
  file : final.sink.file? = start.sink.file?
  here : final.here = start.here
  tree : final.tree = start.tree.grow start.sink.file? arrived
  split : start.sink.pending ++ bytes = arrived ++ final.sink.pending
  delivered : final.delivered = start.delivered ++ arrived

theorem delivers_nothing {world final : World} (sink : final.sink = world.sink)
    (here : final.here = world.here) (tree : final.tree = world.tree)
    (stdout : final.stdout = world.stdout) : Delivers world final [] [] := by
  refine ⟨by rw [sink],here,?_,?_,?_⟩
  · rw [tree,FileTree.grow_nil]
  · rw [sink,List.append_nil,List.nil_append]
  · rw [delivered,delivered,sink,tree,stdout,List.append_nil]

theorem delivers_at_once {world final : World} {bytes : Bytes} (file : world.sink.file? = none)
    (still : final.sink.file? = none) (here : final.here = world.here)
    (tree : final.tree = world.tree) (delivered : final.delivered = world.delivered ++ bytes) :
    Delivers world final bytes bytes := by
  refine ⟨still.trans file.symm,here,?_,?_,delivered⟩
  · rw [tree,file]
    rfl
  · rw [Sink.pending_of_no_file file,Sink.pending_of_no_file still,List.nil_append,List.append_nil]

theorem Delivers.trans {start middle final : World} {first second arrived later : Bytes}
    (below : start.sink.file? ≠ some []) (one : Delivers start middle first arrived)
    (two : Delivers middle final second later) :
    Delivers start final (first ++ second) (arrived ++ later) := by
  refine ⟨two.file.trans one.file,two.here.trans one.here,?_,?_,?_⟩
  · rw [two.tree,one.file,one.tree,FileTree.grow_grow below]
  · rw [← List.append_assoc,one.split,List.append_assoc,two.split,List.append_assoc]
  · rw [two.delivered,one.delivered,List.append_assoc]

theorem tree_append (world : World) (place : Location) (bytes : Bytes) :
    (world.append place bytes).tree = world.tree.grow (some place) bytes := by
  rw [append,FileTree.grow]
  split <;> rfl

theorem here_append (world : World) (place : Location) (bytes : Bytes) :
    (world.append place bytes).here = world.here := by
  unfold append
  split <;> rfl

theorem stdout_append (world : World) (place : Location) (bytes : Bytes) :
    (world.append place bytes).stdout = world.stdout := by
  unfold append
  split <;> rfl

/-- What of pending bytes and others behind them goes out to a file, and what is held back. -/
def spill (pending bytes : Bytes) : Bytes × Bytes :=
  if pending.length + bytes.length ≤ blockSize ∧ bytes.length < blockSize then ([],pending ++ bytes)
  else if bytes.length < blockSize then (pending,bytes)
  else (pending ++ bytes,[])

theorem spill_append (pending bytes : Bytes) :
    pending ++ bytes = (spill pending bytes).1 ++ (spill pending bytes).2 := by
  unfold spill
  split
  · rfl
  · split
    · rfl
    · exact (List.append_nil _).symm

theorem write_file {world : World} {place : Location} {pending : Bytes}
    (sink : world.sink = .file place pending) (bytes : Bytes) :
    world.write bytes =
      (none,{ world.append place (spill pending bytes).1 with
        sink := .file place (spill pending bytes).2 }) := by
  unfold World.write spill
  rw [sink]
  dsimp only
  split
  · rfl
  · split <;> rfl

theorem flush_file {world : World} {place : Location} {pending : Bytes}
    (sink : world.sink = .file place pending) :
    world.flush = (none,{ { world with flushes := world.flushes + 1 }.append place pending with
      sink := .file place [] }) := by
  unfold World.flush
  rw [sink]

/-- A file sink from which the pending bytes go out, with others behind them or alone. -/
theorem delivers_file {world : World} {place : Location} {pending : Bytes}
    (sink : world.sink = .file place pending) (below : world.sink.file? ≠ some [])
    (bytes arrived held : Bytes) (split : pending ++ bytes = arrived ++ held) :
    Delivers world { world.append place arrived with sink := .file place held } bytes arrived := by
  have apart : place ≠ [] := fun root => below (by rw [sink,root]; rfl)
  have file : world.sink.file? = some place := by rw [sink]; rfl
  refine ⟨file.symm,here_append _ _ _,?_,?_,?_⟩
  · rw [file]
    exact tree_append _ _ _
  · rw [sink]
    exact split
  · have before : world.delivered = world.tree.content place := by rw [World.delivered,sink]
    change (world.append place arrived).tree.content place = world.delivered ++ arrived
    rw [before,tree_append,FileTree.content_grow apart]

theorem delivers_of_write {world final : World} {bytes : Bytes} (below : world.sink.file? ≠ some [])
    (taken : world.write bytes = (none,final)) : ∃ arrived, Delivers world final bytes arrived := by
  cases sink : world.sink with
  | stdout =>
    rw [World.write,sink] at taken
    cases taken
    exact ⟨bytes,delivers_at_once (by rw [sink]; rfl) rfl rfl rfl (by simp [delivered,sink])⟩
  | memory limit refuses content =>
    rw [World.write,sink] at taken
    cases limit with
    | none =>
      cases taken
      exact ⟨bytes,delivers_at_once (by rw [sink]; rfl) rfl rfl rfl (by simp [delivered,sink])⟩
    | some limit =>
      obtain ⟨fault,same⟩ := Prod.mk.inj taken
      have room : ¬limit - content.length < bytes.length := by
        intro short
        rw [if_pos short] at fault
        cases fault
      cases same
      rw [List.take_of_length_le (Nat.le_of_not_lt room)]
      exact ⟨bytes,delivers_at_once (by rw [sink]; rfl) rfl rfl rfl (by simp [delivered,sink])⟩
  | file place pending =>
    rw [write_file sink] at taken
    cases taken
    exact ⟨_,delivers_file sink below bytes _ _ (spill_append pending bytes)⟩

theorem delivers_of_flush {world final : World} (below : world.sink.file? ≠ some [])
    (taken : world.flush = (none,final)) :
    final.sink.pending = [] ∧ Delivers world final [] world.sink.pending := by
  have counted : Delivers world { world with flushes := world.flushes + 1 } [] [] :=
    delivers_nothing rfl rfl rfl rfl
  unfold World.flush at taken
  cases sink : world.sink with
  | stdout =>
    rw [sink] at taken counted
    cases taken
    exact ⟨rfl,counted⟩
  | memory limit refuses content =>
    rw [sink] at taken counted
    cases refuses with
    | true => cases taken
    | false =>
      cases taken
      exact ⟨rfl,counted⟩
  | file place pending =>
    rw [sink] at taken counted
    cases taken
    exact ⟨rfl,counted.trans below (delivers_file rfl (sink ▸ below) [] pending [] rfl)⟩

/-- The bytes that a sink has taken: those that arrived and those that are pending. -/
def taken (world : World) : Bytes := world.delivered ++ world.sink.pending

theorem Delivers.taken {start final : World} {bytes arrived : Bytes}
    (delivers : Delivers start final bytes arrived) : final.taken = start.taken ++ bytes := by
  rw [World.taken,World.taken,delivers.delivered,List.append_assoc,← delivers.split,
    List.append_assoc]

theorem events_append (world : World) (place : Location) (bytes : Bytes) :
    (world.append place bytes).events = world.events := by
  unfold append
  split <;> rfl

theorem events_write (world : World) (bytes : Bytes) :
    (world.write bytes).2.events = world.events := by
  cases sink : world.sink with
  | stdout => rw [World.write,sink]
  | file place pending => rw [write_file sink,events_append]
  | memory limit refuses content => cases limit <;> rw [World.write,sink]

/-- A sink that gives out in a write has taken a part of it. -/
theorem taken_of_refused {world final : World} {fault : Sink.Fault} {bytes : Bytes}
    (refused : world.write bytes = (some fault,final)) :
    final.sink.file? = world.sink.file? ∧
      ∃ part, final.taken = world.taken ++ part ∧ part <+: bytes ∧ part ≠ bytes := by
  cases sink : world.sink with
  | stdout =>
    rw [World.write,sink] at refused
    cases refused
  | file place pending =>
    rw [write_file sink] at refused
    cases refused
  | memory limit refuses content =>
    rw [World.write,sink] at refused
    cases limit with
    | none => cases refused
    | some limit =>
      obtain ⟨short,rfl⟩ := Prod.mk.inj refused
      have room : limit - content.length < bytes.length := by
        refine Nat.lt_of_not_le fun enough => ?_
        rw [if_neg (Nat.not_lt.mpr enough)] at short
        cases short
      refine ⟨rfl,bytes.take (limit - content.length),?_,List.take_prefix _ _,?_⟩
      · simp [taken,delivered,sink,Sink.pending]
      · intro whole
        have length := congrArg List.length whole
        rw [List.length_take] at length
        omega

end World
end LayoutRules
