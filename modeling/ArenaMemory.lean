import ArenaMemory.Config.File
import ArenaMemory.Trace.Session
import ArenaMemory.Proofs.Region.BlockSafety
import ArenaMemory.Proofs.Region.ChunkLedger
import ArenaMemory.Proofs.Interner.Refinement
import ArenaMemory.Proofs.Interner.BlockLedger
import ArenaMemory.Proofs.Interner.FailedIntern
import ArenaMemory.Proofs.Region.Representation
import ArenaMemory.Proofs.Region.Limit
import ArenaMemory.Proofs.Interner.ArenaLimit
import ArenaMemory.Proofs.Interner.StableCopies
import ArenaMemory.Proofs.Interner.Forgetting
import ArenaMemory.Proofs.Region.Hosting
import ArenaMemory.Proofs.World.Holdings
import ArenaMemory.Proofs.World.Exchange
import ArenaMemory.Proofs.Allocator.Sparing
import ArenaMemory.Proofs.Allocator.Tally
import ArenaMemory.Proofs.World.Optional
import ArenaMemory.Proofs.World.Tenancy
import ArenaMemory.Proofs.World.Towers
import ArenaMemory.Proofs.World.Site
import ArenaMemory.Proofs.World.Lifetime
import ArenaMemory.Proofs.World.Step
import ArenaMemory.Proofs.World.NoInterference
import ArenaMemory.Proofs.Region.Carving
import ArenaMemory.Proofs.Region.SlowPath
import ArenaMemory.Proofs.Region.Refusal
import ArenaMemory.Proofs.Region.Replay
import ArenaMemory.Proofs.Interner.Lookup
import ArenaMemory.Proofs.Interner.Growth
import ArenaMemory.Proofs.Interner.Presizing
import ArenaMemory.Proofs.Region.Moving
import ArenaMemory.Proofs.Region.GeometricGrowth
import ArenaMemory.Proofs.World.Capacity
import ArenaMemory.Proofs.Binary64.Reading
import ArenaMemory.Proofs.Binary64.Shortest
import ArenaMemory.Proofs.Config.RoundTrip
import ArenaMemory.Proofs.Masking
import ArenaMemory.Proofs.Interner.ProbeLoops
import ArenaMemory.Proofs.Boxes
import ArenaMemory.Proofs.World.Trace
