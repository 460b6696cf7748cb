import LayoutRules.Proofs.Manifest.Jobs
import LayoutRules.Proofs.Toml.Written

/-! Manifests written for a single job. What may be absent from a job, may be absent from its text:
a number that is not given, and the heading where it is wanted. -/
namespace LayoutRules.Manifest
open Toml

namespace Entry

/-- The keys of a job with what is written behind them. The heading is given
where it is not wanted, and else on request. -/
def settings (entry : Entry) (givesHeader : Bool) : List (Text × Literal) :=
  [("want".toList,.string entry.want)] ++
    (entry.number.map fun number => ("number".toList,.number number)).toList ++
    [("dest".toList,.string entry.dest),("files".toList,.strings entry.files)] ++
    if givesHeader || !entry.header then [("header".toList,.flag entry.header)] else []

def toLines (entry : Entry) (givesHeader : Bool) : List Written :=
  .element "job".toList :: (entry.settings givesHeader).map fun (key,literal) =>
    .setting key literal

def toText (entry : Entry) (givesHeader : Bool) : Text :=
  (entry.toLines givesHeader).flatMap Written.toText

def table (entry : Entry) (givesHeader : Bool) : Entries :=
  (entry.settings givesHeader).map fun (key,literal) => (key,literal.value)

end Entry

variable {root : Entries} {entries : List Entry}

theorem isBare_of_mem_keys : ∀ key ∈ Entry.keys, Scan.IsBare key := by decide +kernel

theorem nodup_keys : Entry.keys.Nodup := by decide +kernel

theorem keys_settings (entry : Entry) (givesHeader : Bool) :
    ((entry.settings givesHeader).map Prod.fst).Sublist Entry.keys := by
  obtain ⟨want,number,dest,files,header⟩ := entry
  cases number <;> cases header <;> cases givesHeader <;> exact List.isSublist_iff_sublist.mp rfl

theorem spells_table (entry : Entry) (givesHeader : Bool) :
    Spells (entry.table givesHeader) entry := by
  have known : ∀ given ∈ entry.table givesHeader, given.1 ∈ Entry.keys := by
    intro given member
    obtain ⟨setting,inside,rfl⟩ := List.mem_map.mp member
    exact (keys_settings entry givesHeader).subset (List.mem_map_of_mem inside)
  obtain ⟨want,number,dest,files,header⟩ := entry
  refine ⟨known,rfl,?_,?_,⟨false,?_⟩,if givesHeader || !header then some header else none,?_⟩
  · cases number with
    | none => cases header <;> cases givesHeader <;> rfl
    | some number => rfl
  · cases number <;> rfl
  · cases number <;> rfl
  · cases number <;> cases header <;> cases givesHeader <;> exact ⟨rfl,rfl⟩

theorem parse_toText (entry : Entry) (givesHeader : Bool) :
    Toml.parse (entry.toText givesHeader) =
      some [("job".toList,.array true [.table .header (entry.table givesHeader)])] := by
  have keys := keys_settings entry givesHeader
  have bares : ∀ setting ∈ entry.settings givesHeader, Scan.IsBare setting.1 :=
    fun setting member => isBare_of_mem_keys _ (keys.subset (List.mem_map_of_mem member))
  exact parse_element (by decide) bares (keys.nodup nodup_keys)

theorem fits_table (entry : Entry) (givesHeader : Bool) :
    Fits [("job".toList,.array true [.table .header (entry.table givesHeader)])] [entry] :=
  .listed true _ _ (.cons ⟨.header,_,rfl,spells_table entry givesHeader⟩ .nil)

theorem Fits.holdsTables (fits : Fits root entries) : HoldsTables root := by
  cases fits with
  | absent => nofun
  | listed isOpen elements _ carried =>
    have found : Entries.find? [("job".toList,.array isOpen elements)] "job".toList = some _ :=
      List.lookup_cons_self
    rintro value held element member
    cases found.symm.trans held
    obtain ⟨entry,origin,table,rfl,_⟩ := exists_of_forall₂ carried member
    rfl

end LayoutRules.Manifest
