import ScriptHost.Http.Service
import ScriptHost.Main
import ScriptHost.Proofs.Dict
import ScriptHost.Proofs.MsgPack.Word
import ScriptHost.Proofs.Parts
import ScriptHost.Proofs.Json.Quoted
import ScriptHost.Proofs.MsgPack.RoundTrip
import ScriptHost.Proofs.Json.RoundTrip
import ScriptHost.Proofs.Ty.Notation
import ScriptHost.Proofs.Ty.Accepted
import ScriptHost.Proofs.Number.Integral
import ScriptHost.Proofs.Ty.Unify
import ScriptHost.Proofs.Value.Ty
import ScriptHost.Proofs.Value.Equal
import ScriptHost.Proofs.Value.Plain
import ScriptHost.Proofs.Wire.Path
import ScriptHost.Proofs.Wire.PrefixFree
import ScriptHost.Proofs.Wire.Places
import ScriptHost.Proofs.Wire.Reshape
import ScriptHost.Proofs.Wire.RoundTrip
import ScriptHost.Proofs.Wire.Conform
import ScriptHost.Proofs.Wire.Inferred
import ScriptHost.Proofs.Engine.Settle
import ScriptHost.Proofs.Engine.Classify
import ScriptHost.Proofs.Engine.Crossing
import ScriptHost.Proofs.Engine.Cross
import ScriptHost.Proofs.Engine.Position
import ScriptHost.Proofs.MsgPack.Extent
import ScriptHost.Proofs.MsgPack.Bounds
import ScriptHost.Proofs.Value.Stable
import ScriptHost.Proofs.Wire.Stable
import ScriptHost.Proofs.Engine.Stable
import ScriptHost.Proofs.Engine.Echo
import ScriptHost.Proofs.Engine.Enumerate
import ScriptHost.Proofs.Provider.Echo
import ScriptHost.Proofs.Provider.Runs
import ScriptHost.Proofs.Engine.Normal
import ScriptHost.Proofs.Engine.Direct
import ScriptHost.Proofs.Engine.Reorder
import ScriptHost.Proofs.Json.Number
import ScriptHost.Proofs.Json.Canonical
import ScriptHost.Proofs.Base64
import ScriptHost.Proofs.Wire.Transport
import ScriptHost.Proofs.Wire.Typed
import ScriptHost.Proofs.Wire.TextPlaces
import ScriptHost.Proofs.Wire.Sound
import ScriptHost.Proofs.Wire.Twin
import ScriptHost.Proofs.Wire.Agree
import ScriptHost.Proofs.Http.Path
import ScriptHost.Proofs.Provider.Listing
import ScriptHost.Proofs.Ty.Join
import ScriptHost.Proofs.Ty.Nesting
import ScriptHost.Proofs.Http.CallRequest
import ScriptHost.Proofs.Http.Route
import ScriptHost.Proofs.Engine.Raise
import ScriptHost.Proofs.Engine.Unfold
import ScriptHost.Proofs.Engine.Return
import ScriptHost.Proofs.Wire.FirstNaN
import ScriptHost.Proofs.Engine.Written
import ScriptHost.Proofs.Text.Pattern
import ScriptHost.Proofs.Discover.Declaration
import ScriptHost.Proofs.Discover.Search
import ScriptHost.Proofs.Wire.Settled
import ScriptHost.Proofs.Provider.Configure
import ScriptHost.Proofs.Provider.Binding
import ScriptHost.Proofs.Wire.Plain
import ScriptHost.Proofs.Host.Arguments
import ScriptHost.Proofs.Wire.Culprit
import ScriptHost.Proofs.Wire.Reorder
import ScriptHost.Proofs.Wire.Rewrite
import ScriptHost.Proofs.Wire.Resend
import ScriptHost.Proofs.Json.Collated
import ScriptHost.Proofs.Wire.Specialised
import ScriptHost.Proofs.Declaration.ReadBack
import ScriptHost.Proofs.Number.Value
import ScriptHost.Proofs.Wire.Numbers
import ScriptHost.Proofs.Engine.Names
