import LayoutRules.Main
import LayoutRules.Proofs.Generation.Acceptance
import LayoutRules.Proofs.Generation.Boundaries
import LayoutRules.Proofs.Generation.Provenance
import LayoutRules.Proofs.Generation.Section
import LayoutRules.Proofs.Generation.Transcript
import LayoutRules.Proofs.Invocation.Forecast
import LayoutRules.Proofs.Invocation.Spelling
import LayoutRules.Proofs.Job.Commutation
import LayoutRules.Proofs.Layout.Naming
import LayoutRules.Proofs.Layout.Offsets
import LayoutRules.Proofs.Manifest.Relocation
import LayoutRules.Proofs.Mapping.Contents
import LayoutRules.Proofs.Mapping.Decoding
import LayoutRules.Proofs.Mapping.Endings
import LayoutRules.Proofs.Mapping.Warnings
import LayoutRules.Proofs.Mapping.Written
import LayoutRules.Proofs.Rules.Symbols
