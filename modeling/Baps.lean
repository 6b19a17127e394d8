import Baps.Interaction.Program
import Baps.Memory.Flat
import Baps.Memory.CString
import Baps.Memory.Scatter
import Baps.Text.Lines
import Baps.Text.Fgets
import Baps.Text.Pieces
import Baps.Wcfxs.World
import Baps.Wcfxs.Union
import Baps.Wcfxs.Proslic
import Baps.Wcfxs.WaitAccess
import Baps.Wcfxs.IndirectFile
import Baps.Wcfxs.Voicedaa
import Baps.Wcfxs.IsoLink
import Baps.Wcfxs.Hook
import Baps.Wcfxs.Isolation
import Baps.Bus.Driver
import Baps.Bus.Cpld
import Baps.Bus.Refinement
import Baps.Gsm.Uart
import Baps.Gsm.Receive
import Baps.Gsm.Control
import Baps.Gsm.Calls
import Baps.Gsm.CallLaws
import Baps.Gsm.CommandStrings
import Baps.Gsm.Routing
import Baps.Gsm.Startup
import Baps.Gsm.Modem
import Baps.Gsm.Slots
import Baps.Gsm.Samples
import Baps.Gsm.Interleave
import Baps.Memory.Tiling
import Baps.Sram.Pool
import Baps.Sram.Grant
import Baps.Sram.Lists
import Baps.Sram.Sport
import Baps.Wcfxs.LineFeed
import Baps.Wcfxs.Lifecycle
import Baps.Zapscan.Strip
import Baps.Zapscan.LongLines
import Baps.Zapscan.Scan
import Baps.Zapscan.Readback
import Baps.Memory.Buffer
import Baps.Codec.Stream
import Baps.Codec.Bits
import Baps.Codec.G729
import Baps.Codec.Encoder
import Baps.Codec.Decoder
import Baps.Codec.PacketEnd
import Baps.Procwatch.NameLine
import Baps.Procwatch.Watch
import Baps.Procwatch.LineLoop
import Baps.Procwatch.ScanEnds
import Baps.Signal.Debounce
import Baps.Signal.Averager
import Baps.Wcfxs.Polls
import Baps.Wcfxs.HookSwitch
import Baps.Wcfxs.FxoPoll
import Baps.Wcfxs.LineState
import Baps.Wcfxs.Reversal
import Baps.Bfsi.Halves
import Baps.Bfsi.Spi
import Baps.Bfsi.Statistics
import Baps.Bfsi.LoadAverage
import Baps.Image.Zeropad
import Baps.Memory.Ring
import Baps.Zaptel.Events
import Baps.Zaptel.Buffers
import Baps.Zaptel.ReadBlocks
import Baps.Zaptel.WriteBlocks
import Baps.Zaptel.Channel
import Baps.Zaptel.ChannelRuns
import Baps.Zaptel.Streams
import Baps.Zaptel.Signalling
import Baps.Zaptel.PulseReceive
import Baps.Zaptel.PulseDial
import Baps.Zaptel.HookEvents
import Baps.Zaptel.PickUp
import Baps.Memory.Alias
import Baps.Memory.Places
import Baps.Zaptel.Conferences
import Baps.Signal.Saturation
import Baps.Zaptel.ConferenceCall
import Baps.Zaptel.ConfLinks
import Baps.Zaptel.Companding
import Baps.Zaptel.ConferenceRuns
