import StubLibc.Machine
import StubLibc.Strings.Copy
import StubLibc.Strings.Compare
import StubLibc.Malloc.Bump
import StubLibc.Malloc.Refinement
import StubLibc.Tls.Keys
import StubLibc.VectorIo.Loop
import StubLibc.VectorIo.Transfer
import StubLibc.VectorIo.Scatter
import StubLibc.Process
