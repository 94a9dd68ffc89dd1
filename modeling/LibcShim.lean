import LibcShim.Kit.Bytes
import LibcShim.Kit.Run
import LibcShim.Kit.Heap
import LibcShim.Kit.Pool
import LibcShim.Kit.Prefix
import LibcShim.Kit.Chain
import LibcShim.Kit.Owned
import LibcShim.Kit.Objects
import LibcShim.Kit.Renumber
import LibcShim.Kit.Timespec
import LibcShim.Kit.Decimal
import LibcShim.Kit.X86
import LibcShim.Errno
import LibcShim.Errno.Update
import LibcShim.ArgRewrite
import LibcShim.Pthread.Object
import LibcShim.Pthread.LazyInit
import LibcShim.Pthread.Payload
import LibcShim.Pthread.Once
import LibcShim.Pthread.Lifetime
import LibcShim.Pthread.Clock
import LibcShim.Pthread.Cleanup
import LibcShim.Pthread.Semaphore
import LibcShim.Pthread.Symbols
import LibcShim.Network.Sockaddr
import LibcShim.Network.Send
import LibcShim.Network.Receive
import LibcShim.Network.Endpoint
import LibcShim.Network.Flags
import LibcShim.Network.Recvmsg
import LibcShim.Network.Recvmmsg
import LibcShim.Network.Deadline
import LibcShim.Network.Sendmmsg
import LibcShim.Network.Destination
import LibcShim.Network.Addrinfo
import LibcShim.Network.Interfaces
import LibcShim.Network.Allocation
import LibcShim.Network.Lists
import LibcShim.Network.NoSigpipe
import LibcShim.Network.Ifconf
import LibcShim.Network.Socket
import LibcShim.Stdio.Streams
import LibcShim.Stdio.Eof
import LibcShim.Stdio.Fortify
import LibcShim.File.Fcntl
import LibcShim.File.Poll
import LibcShim.File.Mmap
import LibcShim.File.Sendfile
import LibcShim.Path.Rewrite
import LibcShim.Path.Namespace
import LibcShim.Path.Relative
import LibcShim.TimeZone
import LibcShim.Buffers
import LibcShim.Directory
import LibcShim.Setjmp
import LibcShim.Setjmp.Blocks
import LibcShim.Setjmp.Jump
