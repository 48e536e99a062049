import RoboVR.Host.FirstAck
import RoboVR.Decoder.OutputBuffers
import RoboVR.Decoder.Skipping
import RoboVR.Decoder.Coherence
import RoboVR.Decoder.Publication
import RoboVR.AnnexB.ChunkCuts
import RoboVR.AnnexB.AccessUnits
import RoboVR.Wire.VideoPayload
import RoboVR.Wire.BridgeFraming
import RoboVR.Decoder.Surfaces
import RoboVR.Streamer.Backlog
import RoboVR.Streamer.Orphans
import RoboVR.Input.PoseRoundTrip
import RoboVR.Server.WaitForState
import RoboVR.Server.WholePackets
import RoboVR.Server.FinitePose
import RoboVR.Server.FailedSend
import RoboVR.Decoder.InputBuffers
import RoboVR.Decoder.RawRgba
import RoboVR.Decoder.CpuOutput
import RoboVR.Decoder.CpuReads
import RoboVR.Lib.EdgePolling
import RoboVR.Teleop.Deadband
import RoboVR.Teleop.Station
import RoboVR.Render.VideoTexture
import RoboVR.Host.AckCount
import RoboVR.Host.KeyValue
import RoboVR.Host.Lossless
import RoboVR.Host.SliceHeaders
import RoboVR.Wire.AckPayload
import RoboVR.Client.HeadPoses
import RoboVR.Client.Heartbeats
import RoboVR.Client.Delivery
import RoboVR.Client.HostReader
import RoboVR.Client.HostStream
import RoboVR.Bridge.Shutdown
import RoboVR.Bridge.Reading
import RoboVR.Bridge.Delivery
import RoboVR.Xr.Setup
import RoboVR.Xr.Accounts
import RoboVR.Lib.Smoothing
import RoboVR.Teleop.CameraBounds
import RoboVR.Teleop.Relocation
import RoboVR.Streamer.RawPixels
