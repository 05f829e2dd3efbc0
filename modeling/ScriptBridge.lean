import ScriptBridge.Host.Tabled
import ScriptBridge.Main
import ScriptBridge.Proofs.DelayAgenda
import ScriptBridge.Proofs.ExclusiveRuns
import ScriptBridge.Proofs.CompletionDelivery
import ScriptBridge.Proofs.RecordFields
import ScriptBridge.Proofs.SequenceTables
import ScriptBridge.Proofs.StructuralConversion
import ScriptBridge.Proofs.GuestImages
import ScriptBridge.Proofs.RoundTrip
import ScriptBridge.Proofs.NamePaths
import ScriptBridge.Proofs.NameTrees
import ScriptBridge.Proofs.PublishedNames
import ScriptBridge.Proofs.RunVerdict
import ScriptBridge.Proofs.IsolatedCalls
import ScriptBridge.Proofs.SessionRules
import ScriptBridge.Proofs.GuestActs
import ScriptBridge.Proofs.Alike
import ScriptBridge.Proofs.FreshStart
import ScriptBridge.Proofs.TablePaths
import ScriptBridge.Proofs.ExactImages
import ScriptBridge.Proofs.PublishedListing
import ScriptBridge.Proofs.DrainTimes
import ScriptBridge.Proofs.SurfaceEntries
import ScriptBridge.Proofs.NearestDoubles
import ScriptBridge.Proofs.IntegerTexts
import ScriptBridge.Proofs.ConversionToggles
import ScriptBridge.Proofs.TableNesting
import ScriptBridge.Proofs.NormalForms
import ScriptBridge.Proofs.AlignedArguments
import ScriptBridge.Proofs.CoordinateShapes
import ScriptBridge.Proofs.RecentCalls
import ScriptBridge.Proofs.RepetitionCadence
import ScriptBridge.Proofs.RegistrationRuns
import ScriptBridge.Proofs.SignatureRules
import ScriptBridge.Proofs.SourceLines
import ScriptBridge.Proofs.LookCadence
import ScriptBridge.Proofs.WaitRequests
import ScriptBridge.Proofs.UnitLines
import ScriptBridge.Proofs.LineMarkers
import ScriptBridge.Proofs.TraversalOrder
import ScriptBridge.Proofs.GuestValidity
import ScriptBridge.Proofs.CoordinateTexts
import ScriptBridge.Proofs.DelayWords
import ScriptBridge.Proofs.Journeys
import ScriptBridge.Proofs.TomlTexts
import ScriptBridge.Proofs.TomlDocuments
import ScriptBridge.Proofs.ConfigFiles
import ScriptBridge.Proofs.ExactRounding
