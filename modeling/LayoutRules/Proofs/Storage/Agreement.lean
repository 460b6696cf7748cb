import LayoutRules.Proofs.Generation.Coupling
import LayoutRules.Proofs.Storage.Footprint

/-! Worlds that hold the same at some locations, the place of their sink among them. What
is written to the sink keeps this, so that runs which look nowhere else cannot tell such
worlds apart. -/
namespace LayoutRules

namespace World
variable {one two : World} {looked : Location → Prop}

structure AlikeAt (looked : Location → Prop) (one two : World) : Prop where
  nodes : ∀ location, looked location → two.tree.node? location = one.tree.node? location
  here : two.here = one.here
  stdout : two.stdout = one.stdout
  sink : two.sink = one.sink
  place : ∀ place, one.sink.file? = some place → looked place

theorem AlikeAt.append (alike : AlikeAt looked one two) {place : Location} (inside : looked place)
    (bytes : Bytes) :
    AlikeAt looked (one.append place bytes) (two.append place bytes) := by
  by_cases empty : bytes = []
  · simpa [World.append,empty] using alike
  · rw [World.append,World.append,if_neg empty,if_neg empty,
      FileTree.content_congr (alike.nodes place inside)]
    refine ⟨?_,alike.here,alike.stdout,alike.sink,alike.place⟩
    exact fun location member => FileTree.node?_put_congr (fun _ => alike.nodes location member) _

theorem AlikeAt.write (alike : AlikeAt looked one two) (bytes : Bytes) :
    (one.write bytes).1 = (two.write bytes).1 ∧
      AlikeAt looked (one.write bytes).2 (two.write bytes).2 := by
  cases sink : one.sink with
  | stdout =>
    have also : two.sink = .stdout := alike.sink.trans sink
    rw [World.write,World.write,sink,also]
    exact ⟨rfl,alike.nodes,alike.here,congrArg (· ++ bytes) alike.stdout,rfl,
      fun _ held => by cases held⟩
  | memory limit refuses content =>
    have also : two.sink = .memory limit refuses content := alike.sink.trans sink
    rw [World.write,World.write,sink,also]
    cases limit <;> exact ⟨rfl,alike.nodes,alike.here,alike.stdout,rfl,fun _ held => by cases held⟩
  | file place pending =>
    have inside : looked place := alike.place place (by rw [sink]; rfl)
    have appended := alike.append inside (spill pending bytes).1
    rw [write_file sink,write_file (alike.sink.trans sink)]
    exact ⟨rfl,appended.nodes,appended.here,appended.stdout,rfl,
      fun _ same => Option.some.inj same ▸ inside⟩

theorem AlikeAt.flush (alike : AlikeAt looked one two) :
    one.flush.1 = two.flush.1 ∧ AlikeAt looked one.flush.2 two.flush.2 := by
  cases sink : one.sink with
  | stdout =>
    have also : two.sink = .stdout := alike.sink.trans sink
    rw [World.flush,World.flush,sink,also]
    exact ⟨rfl,alike.nodes,alike.here,alike.stdout,rfl,nofun⟩
  | memory limit refuses content =>
    have also : two.sink = .memory limit refuses content := alike.sink.trans sink
    rw [World.flush,World.flush,sink,also]
    exact ⟨rfl,alike.nodes,alike.here,alike.stdout,rfl,nofun⟩
  | file place pending =>
    have inside : looked place := alike.place place (by rw [sink]; rfl)
    have counted : AlikeAt looked { one with flushes := one.flushes + 1 }
        { two with flushes := two.flushes + 1 } :=
      ⟨alike.nodes,alike.here,alike.stdout,alike.sink,alike.place⟩
    have appended := counted.append inside pending
    rw [flush_file sink,flush_file (alike.sink.trans sink)]
    exact ⟨rfl,appended.nodes,appended.here,appended.stdout,rfl,
      fun _ same => Option.some.inj same ▸ inside⟩

theorem AlikeAt.close (alike : AlikeAt looked one two) : AlikeAt looked one.close two.close := by
  unfold World.close
  rw [alike.sink]
  cases sink : one.sink with
  | stdout => exact alike
  | memory limit refuses content => exact alike
  | file place pending =>
    have appended := alike.append (alike.place place (by rw [sink]; rfl)) pending
    exact ⟨appended.nodes,appended.here,appended.stdout,rfl,nofun⟩

end World

namespace Generation

theorem coupling_alikeAt (looked : Location → Prop) : Coupling (World.AlikeAt looked) where
  report _ _ _ alike := ⟨alike.nodes,alike.here,alike.stdout,alike.sink,alike.place⟩
  write _ _ bytes alike := alike.write bytes
  flush _ _ alike := alike.flush

end Generation
end LayoutRules
