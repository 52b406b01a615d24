import OverrideCheck.Main
import OverrideCheck.Program.Edit
import OverrideCheck.Program.Encode
import OverrideCheck.Report.Collector
import OverrideCheck.Report.Decode
import OverrideCheck.Proofs.Hierarchy.Explored
import OverrideCheck.Proofs.Hierarchy.Branches
import OverrideCheck.Proofs.Hierarchy.Completeness
import OverrideCheck.Proofs.Hierarchy.Lockstep
import OverrideCheck.Proofs.Contract.Compatible
import OverrideCheck.Proofs.Report.Sorted
import OverrideCheck.Proofs.Validation.Certified
import OverrideCheck.Proofs.Validation.Due
import OverrideCheck.Proofs.Validation.Independence
import OverrideCheck.Proofs.Hierarchy.SuperclassChain
import OverrideCheck.Proofs.Validation.SuperclassConflict
import OverrideCheck.Proofs.Validation.Facts
import OverrideCheck.Proofs.Hierarchy.Acyclic
import OverrideCheck.Proofs.Hierarchy.Enumeration
import OverrideCheck.Proofs.Hierarchy.Refinement
import OverrideCheck.Proofs.Hierarchy.SubtypesFirst
import OverrideCheck.Proofs.Validation.NearestFirst
import OverrideCheck.Proofs.Report.Closed
import OverrideCheck.Proofs.Validation.Contradictions
import OverrideCheck.Proofs.Validation.Strictness
import OverrideCheck.Proofs.Hierarchy.Redeclared
import OverrideCheck.Proofs.Validation.Answers
import OverrideCheck.Proofs.Validation.Bystanders
import OverrideCheck.Proofs.Validation.Contracts
import OverrideCheck.Proofs.Cli.Run
import OverrideCheck.Proofs.Contract.Mismatches
import OverrideCheck.Proofs.Contract.Canonical
import OverrideCheck.Proofs.Contract.OverridePairs
import OverrideCheck.Proofs.Json.Meaning
import OverrideCheck.Proofs.Json.Decoding
import OverrideCheck.Proofs.Json.Tokens
import OverrideCheck.Proofs.Json.Scanning
import OverrideCheck.Proofs.Program.RoundTrip
import OverrideCheck.Proofs.Validation.FirstOfBranch
import OverrideCheck.Proofs.Report.Lines
import OverrideCheck.Proofs.Program.Erasure
import OverrideCheck.Proofs.Json.Reordered
import OverrideCheck.Proofs.Program.Edits
import OverrideCheck.Proofs.Validation.Attribution
import OverrideCheck.Proofs.Settings.Given
import OverrideCheck.Proofs.Settings.Usable
import OverrideCheck.Proofs.Files.Names
import OverrideCheck.Proofs.Files.Discovery
import OverrideCheck.Proofs.Report.Faithful
