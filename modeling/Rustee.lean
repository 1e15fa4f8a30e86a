import Rustee.ClientLoadTa
import Rustee.ClientSeq
import Rustee.ClientTransport
import Rustee.ClientWindow
import Rustee.CryptoBits
import Rustee.GuestCredit
import Rustee.GuestResult
import Rustee.GuestVirtqRuns
import Rustee.GuestWindows
import Rustee.GuestWire
import Rustee.HostDriver
import Rustee.OsAttribution
import Rustee.OsCancel
import Rustee.OsLifecycle
import Rustee.OsPanic
import Rustee.OsTaSuccess
import Rustee.StorageHandles
import Rustee.StoragePaths
import Rustee.StorageReadLoop
import Rustee.StorageStream
import Rustee.StorageTamper
import Rustee.StorageVersions
import Rustee.VirtBuffer
import Rustee.VirtEntropy
import Rustee.CryptoConvert
import Rustee.CryptoModes
import Rustee.UteeHeader
import Rustee.UteeMem
import Rustee.UteeParams
import Rustee.UteeTime
