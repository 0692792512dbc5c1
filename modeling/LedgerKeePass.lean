import LedgerKeePass.AppMain
import LedgerKeePass.ProgramRun
import LedgerKeePass.AppState
import LedgerKeePass.EventRun
import LedgerKeePass.AppHandlers
import LedgerKeePass.AppCrypto
import LedgerKeePass.ByteBuffer
import LedgerKeePass.AppCommand
import LedgerKeePass.AppDispatch
import LedgerKeePass.AppReceive
import LedgerKeePass.AppTouch
import LedgerKeePass.AppReady
import LedgerKeePass.AppApproval
import LedgerKeePass.AppNoninterference
import LedgerKeePass.AppSlotMap
import LedgerKeePass.AppReceived
import LedgerKeePass.LibAnswer
import LedgerKeePass.LibTcp
import LedgerKeePass.LibUsb
import LedgerKeePass.LibClient
import LedgerKeePass.UsbFraming
import LedgerKeePass.LibKpl
import LedgerKeePass.LibPort
import LedgerKeePass.TransportBounds
import LedgerKeePass.LibDecode
import LedgerKeePass.LinkChannels
import LedgerKeePass.TransportEquivalence
import LedgerKeePass.LinkPairing
import LedgerKeePass.AppUser
import LedgerKeePass.EndToEnd
import LedgerKeePass.AppCrash
import LedgerKeePass.AppReplies
import LedgerKeePass.AppWipe
import LedgerKeePass.TcpSegments
import LedgerKeePass.UsbWrites
import LedgerKeePass.UsbAcceptance
import LedgerKeePass.AppNames
import LedgerKeePass.FailedRequests
import LedgerKeePass.Rfc7748
import LedgerKeePass.KeyExchange
import LedgerKeePass.NameAcceptance
import LedgerKeePass.ErrorOr
import LedgerKeePass.ErrorOrLifetimes
import LedgerKeePass.CStrings
import LedgerKeePass.KplSet
import LedgerKeePass.AppBounds
import LedgerKeePass.DeviceName
import LedgerKeePass.AppPowerCycles
import LedgerKeePass.CApi
import LedgerKeePass.ClientMemory
import LedgerKeePass.DeviceConnect
import LedgerKeePass.DeviceHeap
import LedgerKeePass.DeviceLifetimes
import LedgerKeePass.KeyForm
import LedgerKeePass.KeyMemory
import LedgerKeePass.KeyProvider
import LedgerKeePass.KplTools
import LedgerKeePass.LinkReconnect
import LedgerKeePass.ManagedObjects
import LedgerKeePass.Durability
import LedgerKeePass.AppClient
