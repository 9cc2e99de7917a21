import Scriptlet.Main
import Scriptlet.Text.Quoted
import Scriptlet.Proofs.Cache.Effect
import Scriptlet.Proofs.Cache.SingleFlight
import Scriptlet.Proofs.Cache.EvictionOrder
import Scriptlet.Proofs.Cache.ReferenceList
import Scriptlet.Proofs.Cache.Bounded
import Scriptlet.Proofs.Cache.Provenance
import Scriptlet.Proofs.Cache.Payload
import Scriptlet.Proofs.Service.Events
import Scriptlet.Proofs.Service.Transparent
import Scriptlet.Proofs.Language.Arity
import Scriptlet.Proofs.Language.Linking
import Scriptlet.Proofs.Cache.EvictionHistory
import Scriptlet.Proofs.Cache.HookRounds
import Scriptlet.Proofs.Cache.Changes
import Scriptlet.Proofs.Cache.Conservation
import Scriptlet.Proofs.Cache.ExtraPurges
import Scriptlet.Proofs.Grammar.Writing
import Scriptlet.Proofs.Grammar.Scanning
import Scriptlet.Proofs.Grammar.Reading
import Scriptlet.Proofs.Grammar.Building
import Scriptlet.Proofs.Grammar.RoundTrip
import Scriptlet.Proofs.Values.Interchange
import Scriptlet.Proofs.Language.TreeForm
import Scriptlet.Proofs.Language.Dependence
import Scriptlet.Proofs.Language.Globals
import Scriptlet.Proofs.Grammar.Matching
import Scriptlet.Proofs.Grammar.Descent
import Scriptlet.Proofs.Grammar.Counting
import Scriptlet.Proofs.Grammar.Guard
import Scriptlet.Proofs.Grammar.DepthLimit
import Scriptlet.Proofs.Cache.Board
import Scriptlet.Proofs.Cache.MissingFlight
import Scriptlet.Proofs.Cache.FailedFlights
import Scriptlet.Proofs.Cache.AnyPolicy
import Scriptlet.Proofs.Values.FloatOrder
import Scriptlet.Proofs.Values.WideningOrder
import Scriptlet.Proofs.Language.Ranking
import Scriptlet.Proofs.Language.Extremes
import Scriptlet.Proofs.Language.Totals
import Scriptlet.Proofs.Tables
import Scriptlet.Proofs.Language.Equality
import Scriptlet.Proofs.Language.Objects
import Scriptlet.Proofs.Language.Reordering
import Scriptlet.Proofs.Language.FieldOrder
import Scriptlet.Proofs.Language.Arithmetic
import Scriptlet.Proofs.Grammar.Integers
import Scriptlet.Proofs.Language.Signs
import Scriptlet.Proofs.Grammar.Strings
import Scriptlet.Proofs.Grammar.Taking
import Scriptlet.Proofs.Grammar.Layout
import Scriptlet.Proofs.Grammar.Peg
import Scriptlet.Proofs.Grammar.Tree
import Scriptlet.Proofs.Grammar.Leaves
import Scriptlet.Proofs.Grammar.Terminals
import Scriptlet.Proofs.Grammar.Agreement
import Scriptlet.Proofs.Grammar.Assembly
import Scriptlet.Proofs.Grammar.Deriving
import Scriptlet.Proofs.Grammar.BuildErrors
import Scriptlet.Proofs.Cache.Fingerprint
import Scriptlet.Proofs.Language.Depth
import Scriptlet.Proofs.Language.Indexing
import Scriptlet.Proofs.Settings.Libraries
import Scriptlet.Proofs.Settings.Loaders
