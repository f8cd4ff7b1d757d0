import Fcgi.Input.Insertions
import Fcgi.Connection.Assertions
import Fcgi.Connection.EndRequest
import Fcgi.Connection.Switching
import Fcgi.Connection.Ownership
import Fcgi.Connection.BeginRequest
import Fcgi.Connection.Framed
import Fcgi.Connection.Writers
import Fcgi.Connection.StreamCalls
import Fcgi.Connection.Guarantee
import Fcgi.Basics.Decoding
import Fcgi.Connection.Twin
import Fcgi.Connection.Parameters
import Fcgi.Input.ReplySize
import Fcgi.Connection.FirstRecord
import Fcgi.Net.Listening
import Fcgi.Net.Binding
import Fcgi.Connection.Setbuf
import Fcgi.Connection.ShortWrites
import Fcgi.Connection.FilterClose
import Fcgi.Connection.Termination
import Fcgi.Net.Hostname
import Fcgi.Net.Conversions
import Fcgi.Math.Integers
import Fcgi.Rnd.Generators
import Fcgi.Connection.Cuts
import Fcgi.Connection.Service
import Fcgi.Net.Endings
import Fcgi.Net.Workers
import Fcgi.Connection.Sockets
import Fcgi.Connection.Threads
